import Quotation.Proofs.Print.Between
import Quotation.Proofs.Text.Conventions
/-!
# Constants and symbols

A constant and a symbol have different texts, as no constant is written like a name: the words
`NULL`, `TRUE`, `FALSE` and `NaN` are reserved, and other constants begin with a digit, a minus sign
or a quote. The one exception is positive infinity, which is written `inf`, while the reserved word
is `Inf` (`text_const_eq_text_symbol_iff`).
-/

namespace Quotation

/-! ## Infinities -/

namespace Double

/-- Positive infinity. -/
def infinity : Double := ⟨0x7FF0000000000000⟩

/-- What is neither a number nor finite is an infinity, and one of the two is not negative. -/
theorem eq_infinity {d : Double} (hnan : d.isNaN = false) (hfinite : d.isFinite = false)
    (hnegative : d.isNegative = false) : d = infinity := by
  have hmagnitude : d.magnitude = infinityMagnitude := by
    rw [isNaN, decide_eq_false_iff_not] at hnan
    rw [isFinite, decide_eq_false_iff_not] at hfinite
    omega
  have hlt : d.bits.toNat < 2 ^ 63 := by
    rw [isNegative_eq, Nat.testBit_eq_decide_div_mod_eq, decide_eq_false_iff_not] at hnegative
    have := d.bits.toNat_lt
    omega
  rw [magnitude_eq, Nat.mod_eq_of_lt hlt] at hmagnitude
  obtain ⟨bits⟩ := d
  rw [infinity, mk.injEq, ← UInt64.toNat_inj, hmagnitude]
  rfl

end Double

/-! ## Texts of names -/

namespace Print

open Text

/-- A text of a name that does not begin with a backtick is a syntactic name. -/
theorem eq_of_writeName_eq {s : String} {cs : List Char} (h : writeName s = cs) (hquote : cs.head? ≠ some backtick) :
    isNameText cs = true ∧ s = String.ofList cs := by
  subst h
  unfold writeName at hquote ⊢
  split
  · rename_i hs
    exact ⟨hs, String.ofList_toList.symm⟩
  · rename_i hs
    rw [if_neg hs] at hquote
    exact absurd rfl hquote

theorem ne_writeName {cs : List Char} (hname : isNameText cs = false) (hquote : cs.head? ≠ some backtick) (s : String) :
    cs ≠ writeName s := by
  intro h
  rw [(eq_of_writeName_eq h.symm hquote).1] at hname
  cases hname

theorem ne_writeName_of_cons {c : Char} (hpart : isNamePart c = false) (hquote : c ≠ backtick) (cs : List Char)
    (s : String) : c :: cs ≠ writeName s := by
  refine ne_writeName ?_ (by simpa using hquote) s
  rw [Bool.eq_false_iff]
  intro hname
  rw [(characters_of_isNameText hname).2 c List.mem_cons_self] at hpart
  cases hpart

theorem ne_writeName_of_beginsWithDigit {cs : List Char} (h : beginsWithDigit cs = true) (s : String) :
    cs ≠ writeName s := by
  cases cs with
  | nil => cases h
  | cons c cs =>
    have hc : c.isDigit = true := h
    refine ne_writeName ?_ ?_ s
    · rw [Bool.eq_false_iff]
      intro hname
      obtain ⟨⟨d, ds, heq, hd⟩, -⟩ := characters_of_isNameText hname
      rw [← (List.cons.inj heq).1, hc] at hd
      cases hd
    · rintro ⟨⟩
      exact absurd hc (by decide)

/-! ## Constants -/

theorem print_number (n : Number) :
    (Node.const (.number n)).print .between (.standard true) = n.text .printed := by
  simp [Node.print, Node.printed, Printed.ofConstant, constant, write, Formatter.standard]

theorem number_ne_writeName {n : Number} (hn : n ≠ .float .infinity) (s : String) : n.text .printed ≠ writeName s := by
  have hminus : isNamePart '-' = false := by decide
  cases n with
  | int i =>
    rw [Number.text]
    rcases writesIntegers.cases i.toInt with ⟨-, cs, hcs⟩ | ⟨-, hdigit⟩
    · rw [hcs]
      exact ne_writeName_of_cons hminus (by decide) cs s
    · exact ne_writeName_of_beginsWithDigit hdigit s
  | float d =>
    rw [Number.text]
    have hsigned (cs : List Char) (hnegative : d.isNegative = true) : d.sign ++ cs ≠ writeName s := by
      rw [Double.sign, if_pos hnegative]
      exact ne_writeName_of_cons hminus (by decide) cs s
    rcases (writesDoubles .printed).cases d with ⟨-, hnan⟩ | ⟨hnan, hfinite, hinf⟩ | ⟨-, cs, hdigit, htext⟩
    · rw [hnan]
      exact ne_writeName (by decide) (by decide) s
    · rw [hinf]
      cases hnegative : d.isNegative with
      | true => exact hsigned _ hnegative
      | false => exact absurd (congrArg Number.float (Double.eq_infinity hnan hfinite hnegative)) hn
    · rw [htext]
      cases hnegative : d.isNegative with
      | true => exact hsigned _ hnegative
      | false =>
        rw [Double.sign, if_neg (by simp [hnegative]), List.nil_append]
        exact ne_writeName_of_beginsWithDigit hdigit s

/-- No constant but positive infinity is written like a name. -/
theorem constant_ne_writeName {c : Constant} (hc : c ≠ .number (.float .infinity)) (s : String) :
    (Node.const c).print .between (.standard true) ≠ writeName s := by
  cases c with
  | null =>
    show "NULL".toList ≠ writeName s
    exact ne_writeName (by decide) (by decide) s
  | bool b =>
    cases b with
    | true =>
      show "TRUE".toList ≠ writeName s
      exact ne_writeName (by decide) (by decide) s
    | false =>
      show "FALSE".toList ≠ writeName s
      exact ne_writeName (by decide) (by decide) s
  | number n =>
    rw [print_number]
    exact number_ne_writeName (fun h => hc (congrArg _ h)) s
  | string t => exact ne_writeName_of_cons (c := '"') (by decide) (by decide) _ s

/-- Of all constants and all symbols with a name, only positive infinity and the symbol `inf` have the
same text. -/
theorem text_const_eq_text_symbol_iff (c : Constant) {s : String} (hs : s ≠ "") :
    (Node.const c).text = (Node.symbol s).text ↔ c = .number (.float .infinity) ∧ s = "inf" := by
  rw [text_eq_iff_print_eq, print_named hs]
  refine ⟨fun h => ?_, ?_⟩
  · have hc : c = .number (.float .infinity) := by
      by_contra hc
      exact constant_ne_writeName hc s h
    have hinf : (Node.const (.number (.float .infinity))).print .between (.standard true) = "inf".toList := by decide
    rw [hc, hinf] at h
    exact ⟨hc, (eq_of_writeName_eq h.symm (by decide)).2.trans String.ofList_toList⟩
  · rintro ⟨rfl, rfl⟩
    decide

/-- The symbol of the reserved word is written in quotes, and not like the double. -/
theorem text_const_eq_text_symbol_iff_nan : ∃ (c : Constant) (s : String), s ≠ "" ∧ (Node.const c).text = "NaN" ∧
    (Node.symbol s).text = "\x60NaN\x60" ∧ (Node.const c).text ≠ (Node.symbol s).text :=
  ⟨.number (.float ⟨0x7FF8000000000000⟩), "NaN", by decide, by decide, by decide, fun h =>
    absurd ((text_const_eq_text_symbol_iff _ (by decide)).1 h).2 (by decide)⟩

/-- Positive infinity and a symbol have the same text. -/
theorem text_const_infinity : ∃ (c : Constant) (s : String), c = .number (.float ⟨0x7FF0000000000000⟩) ∧ s ≠ "" ∧
    (Node.const c).text = "inf" ∧ (Node.symbol s).text = (Node.const c).text :=
  ⟨_, "inf", rfl, by decide, by decide, by decide⟩

end Print

end Quotation
