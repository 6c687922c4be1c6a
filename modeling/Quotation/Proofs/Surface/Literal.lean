import Quotation.Proofs.Surface.Written
/-!
# Names in string literals

A string literal of generated code stands for the string that it is the literal of (`writesStrings`):
`content?` undoes the escapes. The surface notation takes a name from a literal without undoing them
(`literalName_string`). So a name comes out as it was meant exactly if nothing in it has to be escaped
(`names_are_bodies`).
-/

namespace Quotation.Surface

open Text (visible literalBody codePoint)

/-! ## Names -/

theorem visible_eq_or_length (c : Char) : visible c = [c] ∨ 2 ≤ (visible c).length := by
  unfold visible
  split
  case h_7 =>
    split
    · exact .inl rfl
    · exact .inr (by simp [codePoint])
  all_goals exact .inr (by decide)

/-- Escapes make a literal longer, so that one as long as its string has none. -/
theorem length_literalBody (cs : List Char) : cs.length ≤ (literalBody cs).length ∧
    ((literalBody cs).length = cs.length → ∀ c ∈ cs, visible c = [c]) := by
  fun_induction literalBody cs with
  | case1 => exact ⟨Nat.le_refl _, fun _ c hc => absurd hc List.not_mem_nil⟩
  | case2 d rest hd ih | case3 d rest hd ih =>
    have hle := ih.1
    simp only [List.length_append, List.length_cons] at *
    exact ⟨by simp; omega, fun h => absurd h (by simp; omega)⟩
  | case4 c rest hc ih =>
    have hle := ih.1
    rw [List.length_append, List.length_cons]
    rcases visible_eq_or_length c with hvisible | hlong
    · rw [hvisible, List.length_singleton]
      refine ⟨by omega, fun h d hd => ?_⟩
      rcases List.mem_cons.1 hd with rfl | hd
      · exact hvisible
      · exact ih.2 (by omega) d hd
    · exact ⟨by omega, fun h => absurd h (by omega)⟩

theorem body_eq_iff (s : String) : body s = s ↔ IsPlain s := by
  constructor
  · intro h
    have hlist : literalBody s.toList = s.toList := by
      rw [← String.toList_ofList (l := literalBody s.toList), ← body, h]
    exact (length_literalBody s.toList).2 (by rw [hlist])
  · exact body_of_plain

theorem read_ident (joint : Bool) (s : String) : read [.punct '#' joint, Code.string s] = .ok (.ident (body s)) :=
  read_of_readItem (readItem_ident joint s [])

/-- An identifier and the name of an argument come out as they stand in their literal, and thus as the string that the
literal stands for exactly if nothing is escaped in it. The code of a form has a literal that stands for the name. -/
theorem names_are_bodies (s : String) :
    (Code.string s).content? = some s ∧
    (∀ joint, read [.punct '#' joint, Code.string s] = .ok (.ident (body s))) ∧
    (∀ joint joint' ts v rest, readForm ts = .ok (v, rest) →
      readArgument (.punct '#' joint :: .punct ':' joint' :: Code.string s :: ts) = .ok (.named (body s) v, rest) ∧
        readArgument (.punct ':' false :: Code.string s :: ts) = .ok (.named (body s) v, rest)) ∧
    (body s = s ↔ IsPlain s) ∧
    ∀ name : String, ∃ t : Token, t.content? = some name ∧ (Form.ident name).code = Code.construct "ident" [t] ∧
      ∀ value, Code.argument (some name) value =
        Code.call ["quasi", "SyntaxArg", "named"] (t :: Code.comma :: value) := by
  refine ⟨writesStrings.content s, fun joint => read_ident joint s,
    fun joint joint' ts v rest hvalue => ?_, body_eq_iff s, ?_⟩
  · exact readArgument_named hvalue s joint joint'
  · exact fun name => ⟨Code.string name, writesStrings.content name, insertsLiterals.ident name, fun value => rfl⟩

/-- A quote in an argument's name comes out with the backslash before it. -/
theorem names_are_bodies_quote :
    (Code.string "a\"b").content? = some "a\"b" ∧
    readForm [.literal "1"] = .ok (.literal "1", []) ∧
    readArgument [.punct ':' false, Code.string "a\"b", .literal "1"] =
      .ok (.named "a\\\"b" (.literal "1"), []) := by
  obtain ⟨hcontent, -, hnamed, -⟩ := names_are_bodies "a\"b"
  have hvalue : readForm [.literal "1"] = .ok (.literal "1", []) := rfl
  exact ⟨hcontent, hvalue, (hnamed false false _ _ _ hvalue).2⟩

theorem not_name_is_content : ¬ ∀ s joint, read [.punct '#' joint, Code.string s] = .ok (.ident s) := by
  intro h
  have hbody : body "a\"b" = "a\"b" := by simpa using (read_ident false "a\"b").symm.trans (h "a\"b" false)
  have hvisible : visible '"' = ['"'] := (body_eq_iff _).1 hbody '"' (by decide)
  exact absurd hvisible (by decide)

end Quotation.Surface
