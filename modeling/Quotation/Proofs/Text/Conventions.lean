import Quotation.Decimal.Layout
import Quotation.Proofs.Number.Shortest
import Quotation.Surface.Code
/-!
# Conventions about numbers and literals

In which digits a number is written, and which tokens a literal is, is not up to the notation of
expressions, which takes it over as a convention. This is what the results about texts and tokens rest
on of it:

* a natural number is written in decimal digits that are read back as it (`WritesNaturals`), and an
  integer below zero with a minus sign before them (`WritesIntegers`);
* a finite double is written in the digits of a shortest decimal that reads back as it, and an infinity
  or a NaN as a word; but for a NaN, the sign of the bits is written before it (`WritesDoubles`);
* a literal is one token of a stream, but for a sign of it, which is a token of its own
  (`SpreadsLiterals`);
* a string is written as a literal that stands for it, and as it is if nothing has to be escaped
  (`WritesStrings`);
* generated code has a literal as its token and a string as its literal (`InsertsLiterals`).

Each convention is a structure, which the definition at hand is shown to meet.
-/

namespace Quotation

/-! ## Texts that begin with a digit -/

/-- Whether a text begins with a digit. -/
def beginsWithDigit (cs : List Char) : Bool := cs.head?.any Char.isDigit

theorem beginsWithDigit_append {cs : List Char} (h : beginsWithDigit cs = true) (ds : List Char) :
    beginsWithDigit (cs ++ ds) = true := by
  cases cs with
  | nil => cases h
  | cons c cs => exact h

theorem beginsWithDigit_take {cs : List Char} (h : beginsWithDigit cs = true) {k : Nat} (hk : 0 < k) :
    beginsWithDigit (cs.take k) = true := by
  cases cs with
  | nil => cases h
  | cons c cs =>
    obtain ⟨k, rfl⟩ := Nat.exists_eq_succ_of_ne_zero (Nat.ne_of_gt hk)
    exact h

theorem head?_ne_minus_of_beginsWithDigit {cs : List Char} (h : beginsWithDigit cs = true) : cs.head? ≠ some '-' := by
  intro hminus
  rw [beginsWithDigit, hminus] at h
  exact absurd h (by decide)

/-! ## Natural numbers and integers -/

/-- A natural number is written in digits, at least one, that are read back as the number. -/
structure WritesNaturals (digits : Nat → List Char) : Prop where
  ne_nil : ∀ n, digits n ≠ []
  isDigit : ∀ n, ∀ c ∈ digits n, c.isDigit = true
  value : ∀ n, Nat.ofDigitChars 10 (digits n) 0 = n

/-- An integer is written as a natural number, after a minus sign if it is below zero. -/
structure WritesIntegers (digits : Nat → List Char) (write : Int → List Char) : Prop where
  naturals : WritesNaturals digits
  nonneg : ∀ i, 0 ≤ i → write i = digits i.natAbs
  negative : ∀ i, i < 0 → write i = '-' :: digits i.natAbs

theorem writesNaturals : WritesNaturals Layout.digits where
  ne_nil _ := Nat.toDigits_ne_nil
  isDigit _ _ hc := Nat.isDigit_of_mem_toDigits (by decide) (by decide) hc
  value _ := Nat.ofDigitChars_toDigits (by decide) (by decide)

theorem writesIntegers : WritesIntegers Layout.digits Layout.integer where
  naturals := writesNaturals
  nonneg _ h := if_neg (Int.not_lt.2 h)
  negative _ h := if_pos h

theorem WritesNaturals.beginsWithDigit {digits : Nat → List Char} (h : WritesNaturals digits) (n : Nat) :
    beginsWithDigit (digits n) = true := by
  obtain ⟨c, cs, hdigits⟩ := List.exists_cons_of_ne_nil (h.ne_nil n)
  have hc : c ∈ digits n := by
    rw [hdigits]
    exact List.mem_cons_self
  rw [hdigits]
  exact h.isDigit n c hc

/-- How the text of an integer may begin. -/
theorem WritesIntegers.cases {digits : Nat → List Char} {write : Int → List Char} (h : WritesIntegers digits write)
    (i : Int) : (i < 0 ∧ ∃ cs, write i = '-' :: cs) ∨ (0 ≤ i ∧ beginsWithDigit (write i) = true) := by
  rcases Int.lt_or_le i 0 with hi | hi
  · exact .inl ⟨hi, _, h.negative i hi⟩
  · rw [h.nonneg i hi]
    exact .inr ⟨hi, h.naturals.beginsWithDigit _⟩

theorem WritesIntegers.head?_eq_minus_iff {digits : Nat → List Char} {write : Int → List Char}
    (h : WritesIntegers digits write) (i : Int) : (write i).head? = some '-' ↔ i < 0 := by
  rcases h.cases i with ⟨hi, cs, hcs⟩ | ⟨hi, hdigit⟩
  · rw [hcs]
    exact iff_of_true rfl hi
  · exact iff_of_false (head?_ne_minus_of_beginsWithDigit hdigit) (Int.not_lt.2 hi)

/-! ## Doubles -/

/-- The sign of the bits, which zeros and infinities have as well. -/
def Double.sign (d : Double) : List Char := if d.isNegative then ['-'] else []

/-- A finite double is written in the digits of a shortest decimal, set as the layout says. Zeros,
infinities and NaNs are written in their own ways. -/
structure WritesDoubles (layout : Layout) (write : Double → List Char) : Prop where
  nan : ∀ d, d.isNaN = true → write d = "NaN".toList
  infinite : ∀ d, d.isNaN = false → d.isFinite = false → write d = d.sign ++ "inf".toList
  zero : ∀ d, d.isZero = true → write d = d.sign ++ '0' :: (if layout.pointZero then ['.', '0'] else [])
  finite : ∀ d, d.isFinite = true → d.isZero = false →
    ∃ x : Decimal, (Decimal.Binary.ofMagnitude d.magnitude).IsShortest x ∧
      (write d = d.sign ++ layout.setPlain (Layout.digits x.coeff) x.exp ∨
        ∃ leading, write d = d.sign ++ Layout.setExponent (Layout.digits x.coeff) leading)

namespace Double

variable {d : Double}

theorem isNaN_of_isFinite (h : d.isFinite = true) : d.isNaN = false := by
  rw [isFinite, decide_eq_true_eq] at h
  exact decide_eq_false (Nat.lt_asymm h)

theorem isFinite_of_isZero (h : d.isZero = true) : d.isFinite = true := by
  rw [isZero, beq_iff_eq] at h
  rw [isFinite, h]
  rfl

theorem isDouble_ofMagnitude (hfinite : d.isFinite = true) (hzero : d.isZero = false) :
    (Decimal.Binary.ofMagnitude d.magnitude).IsDouble := by
  rw [isZero, beq_eq_false_iff_ne] at hzero
  rw [isFinite, decide_eq_true_eq, infinityMagnitude] at hfinite
  have hpow : Nat.pow 2 52 = 4503599627370496 := by decide
  unfold Decimal.Binary.ofMagnitude
  rw [hpow]
  dsimp only
  split
  · rename_i hexponent
    rw [beq_iff_eq] at hexponent
    refine ⟨?_, ?_, Int.le_refl _, ?_, fun h => ?_⟩
    · dsimp only; omega
    · dsimp only; omega
    · dsimp only; omega
    · cases h
  · rename_i hexponent
    rw [beq_iff_eq] at hexponent
    refine ⟨?_, ?_, ?_, ?_, fun h => ?_⟩ <;> dsimp only at *
    · omega
    · omega
    · omega
    · omega
    · rw [Bool.and_eq_true, beq_iff_eq] at h
      omega

end Double

theorem writesDoubles (layout : Layout) : WritesDoubles layout layout.double where
  nan d h := by rw [Layout.double, if_pos h]
  infinite d hnan hfinite := by
    have hzero : d.isZero = false := Bool.eq_false_iff.2 fun h => by
      rw [Double.isFinite_of_isZero h] at hfinite
      cases hfinite
    simp [Layout.double, Double.sign, hnan, hfinite, hzero]
  zero d h := by
    have hnan := Double.isNaN_of_isFinite (Double.isFinite_of_isZero h)
    simp [Layout.double, Double.sign, hnan, h]
  finite d hfinite hzero := by
    have hdouble : layout.double d = d.sign ++ layout.positive d.magnitude := by
      simp only [Layout.double, Double.sign, Double.isNaN_of_isFinite hfinite, hzero, hfinite, Bool.false_eq_true,
        if_false, if_true]
    have hshortest := Decimal.Binary.isShortest_shortest (Double.isDouble_ofMagnitude hfinite hzero) layout.tie
    rw [hdouble, Layout.positive]
    generalize (Decimal.Binary.ofMagnitude d.magnitude).shortest layout.tie = x at hshortest
    refine ⟨x, hshortest, ?_⟩
    split
    · exact .inl rfl
    · exact .inr ⟨_, rfl⟩

namespace Layout

theorem beginsWithDigit_setPlain (layout : Layout) {ds : List Char} (h : beginsWithDigit ds = true) (exp : Int) :
    beginsWithDigit (layout.setPlain ds exp) = true := by
  unfold setPlain
  split
  · exact beginsWithDigit_append (beginsWithDigit_append h _) _
  · dsimp only
    split
    · rfl
    · exact beginsWithDigit_append (beginsWithDigit_take h (by omega)) _

theorem beginsWithDigit_setExponent {ds : List Char} (h : beginsWithDigit ds = true) (exp : Int) :
    beginsWithDigit (setExponent ds exp) = true := by
  unfold setExponent
  refine beginsWithDigit_append ?_ _
  split <;> exact h

end Layout

namespace WritesDoubles

variable {layout : Layout} {write : Double → List Char} (h : WritesDoubles layout write)
include h

/-- How the text of a double may begin. -/
theorem cases (d : Double) : (d.isNaN = true ∧ write d = "NaN".toList) ∨
    (d.isNaN = false ∧ d.isFinite = false ∧ write d = d.sign ++ "inf".toList) ∨
    (d.isFinite = true ∧ ∃ cs, beginsWithDigit cs = true ∧ write d = d.sign ++ cs) := by
  have hdigits := writesNaturals.beginsWithDigit
  cases hnan : d.isNaN with
  | true => exact .inl ⟨rfl, h.nan d hnan⟩
  | false =>
    cases hfinite : d.isFinite with
    | false => exact .inr (.inl ⟨rfl, rfl, h.infinite d hnan hfinite⟩)
    | true =>
      cases hzero : d.isZero with
      | true => exact .inr (.inr ⟨rfl, _, rfl, h.zero d hzero⟩)
      | false =>
        obtain ⟨x, -, hplain | ⟨leading, hexponent⟩⟩ := h.finite d hfinite hzero
        · exact .inr (.inr ⟨rfl, _, layout.beginsWithDigit_setPlain (hdigits _) _, hplain⟩)
        · exact .inr (.inr ⟨rfl, _, Layout.beginsWithDigit_setExponent (hdigits _) _, hexponent⟩)

/-- A double is written with the sign of its bits, and a NaN without one. -/
theorem head?_eq_minus_iff (d : Double) :
    (write d).head? = some '-' ↔ d.isNaN = false ∧ d.isNegative = true := by
  have hsign (cs : List Char) (hcs : cs.head? ≠ some '-') :
      (d.sign ++ cs).head? = some '-' ↔ d.isNegative = true := by
    unfold Double.sign
    cases d.isNegative with
    | true => exact iff_of_true rfl rfl
    | false => exact iff_of_false hcs Bool.false_ne_true
  rcases h.cases d with ⟨hnan, htext⟩ | ⟨hnan, -, htext⟩ | ⟨hfinite, cs, hcs, htext⟩
  · rw [htext, hnan]
    exact iff_of_false (by decide) fun h => Bool.noConfusion h.1
  · rw [htext, hsign _ (by decide), hnan]
    exact (and_iff_right rfl).symm
  · rw [htext, hsign cs (head?_ne_minus_of_beginsWithDigit hcs), Double.isNaN_of_isFinite hfinite]
    exact (and_iff_right rfl).symm

end WritesDoubles

namespace Surface

open Text (visible literalBody codePoint)

/-! ## Undoing the escapes -/

/-- The value of a hexadecimal digit. -/
def hexDigit? (c : Char) : Option Nat :=
  if '0' ≤ c ∧ c ≤ '9' then some (c.toNat - '0'.toNat)
  else if 'a' ≤ c ∧ c ≤ 'f' then some (c.toNat - 'a'.toNat + 10)
  else if 'A' ≤ c ∧ c ≤ 'F' then some (c.toNat - 'A'.toNat + 10)
  else none

/-- The character that a letter stands for after a backslash. -/
def escaped? : Char → Option Char
  | '0' => some '\x00'
  | 't' => some '\t'
  | 'n' => some '\n'
  | 'r' => some '\r'
  | '"' => some '"'
  | '\'' => some '\''
  | '\\' => some '\\'
  | _ => none

/-- The character of a code point. -/
def character? (n : Nat) : Option Char := if n.isValidChar then some (Char.ofNat n) else none

/-- What a character of a literal is part of. -/
inductive Inside where
  | text
  /-- after a backslash -/
  | escape
  /-- before two digits, which give an ASCII character -/
  | byte
  | lowDigit (high : Nat)
  /-- before a code point in braces -/
  | brace
  | codePoint (n : Nat)

/-- The characters that a literal stands for, up to the quote at its end. -/
def characters? : Inside → List Char → Option (List Char)
  | _, [] => none
  | .text, c :: rest =>
    if c = '"' then if rest = [] then some [] else none
    else if c = '\\' then characters? .escape rest
    else (characters? .text rest).map (c :: ·)
  | .escape, c :: rest =>
    if c = 'x' then characters? .byte rest
    else if c = 'u' then characters? .brace rest
    else (escaped? c).bind fun d => (characters? .text rest).map (d :: ·)
  | .byte, c :: rest => (hexDigit? c).bind fun high => characters? (.lowDigit high) rest
  | .lowDigit high, c :: rest =>
    (hexDigit? c).bind fun low =>
      if high < 8 then (characters? .text rest).map (Char.ofNat (16 * high + low) :: ·) else none
  | .brace, c :: rest => if c = '\x7b' then characters? (.codePoint 0) rest else none
  | .codePoint n, c :: rest =>
    if c = '\x7d' then (character? n).bind fun d => (characters? .text rest).map (d :: ·)
    else (hexDigit? c).bind fun d => characters? (.codePoint (16 * n + d)) rest

/-- The string that a literal stands for. -/
def Token.content? : Token → Option String
  | .literal text =>
    match text.toList with
    | '"' :: body => (characters? .text body).map String.ofList
    | _ => none
  | _ => none

/-! ## Written characters -/

theorem hexDigit?_digitChar : ∀ k < 16, hexDigit? (Nat.digitChar k) = some k := by decide

theorem digitChar_ne_brace : ∀ k < 16, Nat.digitChar k ≠ '\x7d' := by decide

theorem character?_toNat (c : Char) : character? c.toNat = some c := by
  rw [character?, if_pos (show c.toNat.isValidChar from c.valid), Char.ofNat_toNat]

/-- The digits of a number are read as the number, whatever follows. -/
theorem characters?_toDigits (n : Nat) (rest : List Char) :
    characters? (.codePoint 0) (Nat.toDigits 16 n ++ rest) = characters? (.codePoint n) rest := by
  have hdigit : ∀ (m k : Nat) (rest : List Char), k < 16 →
      characters? (.codePoint m) (Nat.digitChar k :: rest) = characters? (.codePoint (16 * m + k)) rest := by
    intro m k rest hk
    rw [characters?, if_neg (digitChar_ne_brace k hk), hexDigit?_digitChar k hk]
    rfl
  induction n using Nat.strongRecOn generalizing rest with
  | ind n ih =>
    rcases Nat.lt_or_ge n 16 with hlt | hge
    · rw [Nat.toDigits_of_lt_base hlt, List.singleton_append, hdigit 0 n rest hlt, Nat.mul_zero, Nat.zero_add]
    · rw [Nat.toDigits_of_base_le (by decide) hge, List.append_assoc, ih (n / 16) (by omega), List.singleton_append,
        hdigit _ _ _ (Nat.mod_lt n (by decide)), Nat.div_add_mod]

theorem characters?_codePoint (c : Char) (rest : List Char) :
    characters? .text (codePoint c ++ rest) = (characters? .text rest).map (c :: ·) := by
  have hdigits := characters?_toDigits c.toNat ('\x7d' :: rest)
  have hclosed : characters? (.codePoint c.toNat) ('\x7d' :: rest) = (characters? .text rest).map (c :: ·) := by
    rw [characters?, if_pos rfl, character?_toNat]
    rfl
  rw [← hclosed, ← hdigits, codePoint]
  simp [characters?]

/-- A character of a literal and what follows it. -/
theorem characters?_visible (c : Char) (rest : List Char) :
    characters? .text (visible c ++ rest) = (characters? .text rest).map (c :: ·) := by
  unfold visible
  split
  all_goals try rfl
  rename_i hquote hbackslash
  split
  · rw [List.singleton_append, characters?, if_neg hquote, if_neg hbackslash]
  · exact characters?_codePoint c rest

theorem characters?_literalBody (cs : List Char) : characters? .text (literalBody cs ++ ['"']) = some cs := by
  fun_induction literalBody cs with
  | case1 => rfl
  | case2 d rest hd ih | case3 d rest hd ih =>
    show (characters? .text (literalBody (d :: rest) ++ ['"'])).map ('\x00' :: ·) = _
    rw [ih]
    rfl
  | case4 c rest hc ih =>
    rw [List.append_assoc, characters?_visible, ih]
    rfl

/-! ## Literals in streams -/

/-- A literal that does not begin with a minus. -/
def IsUnsigned (text : String) : Prop := text.toList.head? ≠ some '-'

instance (text : String) : Decidable (IsUnsigned text) := inferInstanceAs (Decidable (_ ≠ _))

/-- A literal is one token of a stream, unless it has a sign, which is a token of its own. -/
structure SpreadsLiterals (spread : Token → List Token) : Prop where
  unsigned : ∀ text, IsUnsigned text → spread (.literal text) = [.literal text]
  signed : ∀ cs, spread (.literal (String.ofList ('-' :: cs))) = [.punct '-' false, .literal (String.ofList cs)]

theorem spreadsLiterals : SpreadsLiterals Token.spread where
  unsigned text h := by
    rw [Token.spread]
    split
    · rename_i rest heq
      rw [IsUnsigned, heq] at h
      exact absurd rfl h
    · rfl
  signed cs := by
    rw [Token.spread]
    simp only [String.toList_ofList]

/-! ## Strings as literals -/

/-- A name whose characters stand for themselves in a string literal. -/
def IsPlain (name : String) : Prop := ∀ c ∈ name.toList, Text.visible c = [c]

instance (name : String) : Decidable (IsPlain name) := List.decidableBAll (fun c => Text.visible c = [c]) name.toList

/-- A string is written as a literal that stands for it, and whose characters are those of the string
if they are plain. -/
structure WritesStrings (string : String → Token) : Prop where
  content : ∀ s, (string s).content? = some s
  literal : ∀ s, ∃ text, string s = .literal text ∧ IsUnsigned text
  plain : ∀ s, IsPlain s → string s = .literal (String.ofList ('"' :: s.toList ++ ['"']))

theorem literalBody_of_plain {cs : List Char} (h : ∀ c ∈ cs, Text.visible c = [c]) : Text.literalBody cs = cs := by
  fun_induction Text.literalBody cs with
  | case1 => rfl
  | case2 d rest hd ih => exact absurd (h _ List.mem_cons_self) (by decide)
  | case3 d rest hd ih => exact absurd (h _ List.mem_cons_self) (by decide)
  | case4 c rest hc ih =>
    rw [h c List.mem_cons_self, ih fun d hd => h d (List.mem_cons_of_mem c hd)]
    rfl

theorem writesStrings : WritesStrings Code.string where
  content s := by
    rw [Code.string, Token.content?, String.toList_ofList, Text.literal]
    show (characters? .text (literalBody s.toList ++ ['"'])).map String.ofList = _
    rw [characters?_literalBody, Option.map_some, String.ofList_toList]
  literal s := ⟨_, rfl, by simp [IsUnsigned, Text.literal]⟩
  plain s h := by rw [Code.string, Text.literal, literalBody_of_plain h]

/-- The literal of a string is one token of a stream. -/
theorem WritesStrings.spread {string : String → Token} (h : WritesStrings string) {spread : Token → List Token}
    (hspread : SpreadsLiterals spread) (s : String) : spread (string s) = [string s] := by
  obtain ⟨text, htext, hunsigned⟩ := h.literal s
  rw [htext, hspread.unsigned text hunsigned]

/-! ## Generated code -/

/-- Code that is generated for a form has a literal as its token, and a name as the literal of it. -/
structure InsertsLiterals (code : Form → List Token) : Prop where
  literal : ∀ text, code (.literal text) = Code.construct "literal" [.literal text]
  negated : ∀ text, code (.negated text) = Code.construct "literal" [.punct '-' false, .literal text]
  ident : ∀ name, code (.ident name) = Code.construct "ident" [Code.string name]

theorem insertsLiterals : InsertsLiterals Form.code := ⟨fun _ => rfl, fun _ => rfl, fun _ => rfl⟩

end Surface

end Quotation
