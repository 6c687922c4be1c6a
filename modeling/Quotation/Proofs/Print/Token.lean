import Quotation.Print.Piece
import Quotation.Proofs.Text.Conventions
import Mathlib.Data.List.Chain
/-!
# Printed text as tokens

The text of an expression is a sequence of words and signs. `nextToken` takes the first one
off a text. It finds a token again that has been written (`nextToken_text`), provided that a
word is not followed by another word at once, so tokens of which no two run together can be
told from their text (`eq_of_textOf_eq`).
-/

namespace Quotation.Print

open Text

/-- The words and signs of printed expressions. -/
inductive Token where
  | null
  | bool (b : Bool)
  | nat (n : Nat)
  | string (s : String)
  | name (name : String)
  | operator (name : String) (spaced : Bool)
  | opened
  | closed
  | comma
  | equals

/-! ## Writing -/

/-- A character of a string constant. -/
def written (c : Char) : List Char := if needsEscape c then escape c else [c]

namespace Token

def text : Token → List Char
  | null => "NULL".toList
  | bool b => if b then "TRUE".toList else "FALSE".toList
  | nat n => Layout.digits n
  | string s => '"' :: s.toList.flatMap written ++ ['"']
  | name n => writeName n
  | operator op spaced => if spaced then ' ' :: op.toList ++ [' '] else op.toList
  | opened => ['(']
  | closed => [')']
  | comma => [',', ' ']
  | equals => [' ', '=', ' ']

/-- Whether the token runs on as long as characters of names follow. -/
def isWord : Token → Bool
  | null => true
  | bool _ => true
  | nat _ => true
  | name n => isSyntacticName n
  | _ => false

/-- Whether the token can be told from its text: a quoted name has no backslash, an operator
between blanks is not taken for the sign of a named argument, and one without blanks is a
single character. -/
def isReadable : Token → Bool
  | name n => !n.toList.contains '\\'
  | operator op true => op != "=" && !op.toList.contains ' '
  | operator op false => ["-", "+", ":", "^", "$", "@"].contains op
  | _ => true

end Token

/-- The text of tokens. -/
def textOf (ts : List Token) : List Char := ts.flatMap Token.text

/-! ## Reading -/

/-- The value of a hexadecimal digit. -/
def hexValue (c : Char) : Nat := if c.isDigit then c.toNat - 48 else c.toNat - 87

/-- The character that a letter stands for after a backslash. -/
def unescape (letter : Char) : Char :=
  if letter = 'a' then '\x07'
  else if letter = 'b' then '\x08'
  else if letter = 'f' then '\x0c'
  else if letter = 'n' then '\n'
  else if letter = 'r' then '\r'
  else if letter = 't' then '\t'
  else if letter = 'v' then '\x0b'
  else letter

/-- What stands before a closing quote, and the text after the quote. -/
def readUntil (quote : Char) : List Char → Option (List Char × List Char)
  | [] => none
  | '\\' :: 'x' :: high :: low :: rest =>
    (readUntil quote rest).map fun (s, rest) => (Char.ofNat (16 * hexValue high + hexValue low) :: s, rest)
  | '\\' :: letter :: rest => (readUntil quote rest).map fun (s, rest) => (unescape letter :: s, rest)
  | c :: rest => if c = quote then some ([], rest) else (readUntil quote rest).map fun (s, rest) => (c :: s, rest)

/-- The token of a word. -/
def wordToken (word : List Char) : Token :=
  if word.all Char.isDigit then .nat (Nat.ofDigitChars 10 word 0)
  else if word = "NULL".toList then .null
  else if word = "TRUE".toList then .bool true
  else if word = "FALSE".toList then .bool false
  else .name (String.ofList word)

/-- The token of a sign between blanks. -/
def spacedToken (sign : List Char) : Token :=
  if sign = ['='] then .equals else .operator (String.ofList sign) true

/-- The first token of a text, and what follows it. -/
def nextToken : List Char → Option (Token × List Char)
  | [] => none
  | '(' :: rest => some (.opened, rest)
  | ')' :: rest => some (.closed, rest)
  | ',' :: rest => some (.comma, rest.drop 1)
  | ' ' :: rest => some (spacedToken (rest.takeWhile (· != ' ')), (rest.dropWhile (· != ' ')).drop 1)
  | '"' :: rest => (readUntil '"' rest).map fun (s, rest) => (.string (String.ofList s), rest)
  | '\x60' :: rest => (readUntil backtick rest).map fun (s, rest) => (.name (String.ofList s), rest)
  | c :: rest =>
    if isNamePart c then some (wordToken ((c :: rest).takeWhile isNamePart), (c :: rest).dropWhile isNamePart)
    else some (.operator (String.ofList [c]) false, rest)

/-! ## Strings and quoted names -/

theorem hexValue_digitChar : ∀ k < 16, hexValue (Nat.digitChar k) = k := by decide

theorem readUntil_cons {quote c : Char} (hquote : c ≠ quote) (hc : c ≠ '\\') (rest : List Char) :
    readUntil quote (c :: rest) = (readUntil quote rest).map fun (s, rest) => (c :: s, rest) := by
  simp [readUntil, hquote, hc]

theorem unescape_of_escapeLetter? {c letter : Char} (h : escapeLetter? c = some letter) :
    letter ≠ 'x' ∧ unescape letter = c := by
  unfold escapeLetter? at h
  repeat' split at h
  all_goals cases h
  all_goals exact ⟨by decide, by subst c; rfl⟩

theorem toNat_lt_of_needsEscape {c : Char} (hc : needsEscape c = true) : c.toNat < 128 := by
  simp only [needsEscape, Bool.or_eq_true, beq_iff_eq, decide_eq_true_eq] at hc
  rcases hc with ((rfl | rfl) | hc) | hc
  · decide
  · decide
  · omega
  · omega

theorem readUntil_escape {c : Char} (hc : needsEscape c = true) (quote : Char) (rest : List Char) :
    readUntil quote (escape c ++ rest) = (readUntil quote rest).map fun (s, rest) => (c :: s, rest) := by
  unfold escape
  cases hletter : escapeLetter? c with
  | some letter =>
    obtain ⟨hx, hc⟩ := unescape_of_escapeLetter? hletter
    simp [readUntil, hx, hc]
  | none =>
    have hcode := toNat_lt_of_needsEscape hc
    have hhigh := hexValue_digitChar (c.toNat / 16) (by omega)
    have hlow := hexValue_digitChar (c.toNat % 16) (by omega)
    have hc : Char.ofNat (16 * (c.toNat / 16) + c.toNat % 16) = c := by
      rw [Nat.div_add_mod, Char.ofNat_toNat]
    simp [readUntil, hhigh, hlow, hc]

theorem readUntil_written_cons (c : Char) (rest : List Char) :
    readUntil '"' (written c ++ rest) = (readUntil '"' rest).map fun (s, rest) => (c :: s, rest) := by
  by_cases hc : needsEscape c = true
  · rw [written, if_pos hc, readUntil_escape hc]
  · rw [written, if_neg hc]
    simp only [needsEscape, Bool.or_eq_true, beq_iff_eq, not_or] at hc
    exact readUntil_cons hc.1.1.1 hc.1.1.2 rest

/-- The characters of a string constant are found again. -/
theorem readUntil_written (cs rest : List Char) :
    readUntil '"' (cs.flatMap written ++ '"' :: rest) = some (cs, rest) := by
  induction cs with
  | nil => rfl
  | cons c cs ih =>
    rw [List.flatMap_cons, List.append_assoc, readUntil_written_cons, ih]
    rfl

/-- A name without backslashes is found again between backticks. -/
theorem readUntil_quoteName {cs : List Char} (h : '\\' ∉ cs) (rest : List Char) :
    readUntil backtick (cs.flatMap (fun c => if c = backtick then ['\\', backtick] else [c]) ++ backtick :: rest) =
      some (cs, rest) := by
  induction cs with
  | nil => rfl
  | cons c cs ih =>
    rw [List.mem_cons, not_or] at h
    rw [List.flatMap_cons, List.append_assoc]
    split
    · subst c
      have hread : ∀ text, readUntil backtick (['\\', backtick] ++ text) =
        (readUntil backtick text).map fun (s, rest) => (backtick :: s, rest) := fun _ => rfl
      rw [hread, ih h.2]
      rfl
    · rw [List.singleton_append, readUntil_cons (by assumption) (Ne.symm h.1), ih h.2]
      rfl

/-! ## Words -/

theorem code_of_isDigit {c : Char} (h : c.isDigit = true) : 48 ≤ c.toNat ∧ c.toNat < 58 := by
  obtain ⟨hlow, hhigh⟩ := Char.isDigit_iff_toNat.1 h
  exact ⟨hlow, Nat.lt_succ_of_le hhigh⟩

theorem isNamePart_of_isDigit {c : Char} (h : c.isDigit = true) : isNamePart c = true := by
  have hcode : c.toNat < 0x80 := by
    have := code_of_isDigit h
    omega
  simp [isNamePart, isNumeric, hcode, h]

theorem not_isAlphabetic_of_isDigit {c : Char} (h : c.isDigit = true) : isAlphabetic c = false := by
  have hdigits : ∀ k < 58, 48 ≤ k → isAlphabetic (Char.ofNat k) = false := by decide
  obtain ⟨hlow, hhigh⟩ := code_of_isDigit h
  have hc := hdigits c.toNat hhigh hlow
  rwa [Char.ofNat_toNat] at hc

theorem head_of_startsName {cs : List Char} (h : startsName cs = true) :
    ∃ c rest, cs = c :: rest ∧ (c = '.' ∨ isAlphabetic c = true) := by
  unfold startsName at h
  split at h
  · cases h
  · exact ⟨_, _, rfl, .inl rfl⟩
  · exact ⟨_, _, rfl, .inl rfl⟩
  · exact ⟨_, _, rfl, .inr h⟩

/-- A syntactic name consists of characters of names, the first of which is no digit. -/
theorem characters_of_isNameText {cs : List Char} (h : isNameText cs = true) :
    (∃ c rest, cs = c :: rest ∧ c.isDigit = false) ∧ ∀ c ∈ cs, isNamePart c = true := by
  have hdot : isNamePart '.' = true := by decide
  simp only [isNameText, Bool.or_eq_true, Bool.and_eq_true, List.all_eq_true] at h
  rcases h with htail | ⟨⟨hstart, hrest⟩, _⟩
  · unfold isTailName at htail
    split at htail
    · rename_i d ds
      rw [List.all_eq_true] at htail
      exact ⟨⟨_, _, rfl, by decide⟩, List.forall_mem_cons.2 ⟨hdot, List.forall_mem_cons.2
        ⟨hdot, fun c hc => isNamePart_of_isDigit (htail c hc)⟩⟩⟩
    · cases htail
  · obtain ⟨c, rest, rfl, rfl | hc⟩ := head_of_startsName hstart
    · exact ⟨⟨_, _, rfl, by decide⟩, List.forall_mem_cons.2 ⟨hdot, hrest⟩⟩
    · refine ⟨⟨c, rest, rfl, ?_⟩, List.forall_mem_cons.2 ⟨by simp [isNamePart, hc], hrest⟩⟩
      rw [Bool.eq_false_iff]
      intro hd
      rw [not_isAlphabetic_of_isDigit hd] at hc
      cases hc

theorem not_reserved_of_isNameText {cs : List Char} (h : isNameText cs = true) : cs ∉ reservedWords := by
  simp only [isNameText, Bool.or_eq_true, Bool.and_eq_true] at h
  rcases h with h | ⟨_, h⟩
  · have hdots : ∀ word ∈ reservedWords, isTailName word = false := by decide
    intro hmem
    rw [hdots cs hmem] at h
    cases h
  · simpa using h

/-- Whether a text goes on with a character that would run on a word. -/
def runsOn (rest : List Char) : Bool := rest.head?.any isNamePart

theorem not_runsOn_cons {c : Char} (h : isNamePart c = false) (rest : List Char) : runsOn (c :: rest) = false := h

/-- A word is read up to where the characters of names end. -/
theorem nextToken_word {word rest : List Char} (hne : word ≠ []) (hword : ∀ c ∈ word, isNamePart c = true)
    (hrest : runsOn rest = false) : nextToken (word ++ rest) = some (wordToken word, rest) := by
  have hstop : rest.takeWhile isNamePart = [] ∧ rest.dropWhile isNamePart = rest := by
    cases rest with
    | nil => exact ⟨rfl, rfl⟩
    | cons d ds =>
      have hd : isNamePart d = false := hrest
      simp [hd]
  have htake : (word ++ rest).takeWhile isNamePart = word := by
    rw [List.takeWhile_append_of_pos hword, hstop.1, List.append_nil]
  have hdrop : (word ++ rest).dropWhile isNamePart = rest := by
    rw [List.dropWhile_append_of_pos hword, hstop.2]
  obtain ⟨c, cs, rfl⟩ := List.exists_cons_of_ne_nil hne
  have hc : isNamePart c = true := hword c List.mem_cons_self
  -- None of the signs that tokens begin with is a character of names.
  have hsign : ∀ d ∈ ['(', ')', ',', ' ', '"', backtick], c ≠ d := by
    rintro d hd rfl
    have hsigns : ['(', ')', ',', ' ', '"', backtick].any isNamePart = false := by decide
    rw [List.any_eq_false] at hsigns
    exact hsigns c hd hc
  rw [List.cons_append] at htake hdrop ⊢
  rw [nextToken, if_pos hc, htake, hdrop]
  all_goals exact hsign _ (by decide)

theorem wordToken_digits (n : Nat) : wordToken (Layout.digits n) = .nat n := by
  have hdigits : (Layout.digits n).all Char.isDigit = true := List.all_eq_true.2 (writesNaturals.isDigit n)
  rw [wordToken, if_pos hdigits, writesNaturals.value]

theorem wordToken_name {name : String} (h : isSyntacticName name = true) : wordToken name.toList = .name name := by
  obtain ⟨⟨c, rest, hcs, hc⟩, _⟩ := characters_of_isNameText h
  have hdigits : ¬ name.toList.all Char.isDigit = true := by
    rw [hcs]
    simp [hc]
  have hreserved : ∀ word ∈ reservedWords, name.toList ≠ word := by
    rintro word hword rfl
    exact not_reserved_of_isNameText h hword
  rw [wordToken, if_neg hdigits, if_neg (hreserved _ (by decide)), if_neg (hreserved _ (by decide)),
    if_neg (hreserved _ (by decide)), String.ofList_toList]

/-! ## Tokens are found again -/

/-- A syntactic name that no character of a name follows. -/
theorem nextToken_symbol {name : String} {rest : List Char} (hname : isSyntacticName name = true)
    (hrest : runsOn rest = false) : nextToken (name.toList ++ rest) = some (.name name, rest) := by
  obtain ⟨⟨c, cs, hcs, _⟩, hparts⟩ := characters_of_isNameText hname
  rw [nextToken_word (by simp [hcs]) hparts hrest, wordToken_name hname]

theorem nextToken_name {name : String} {rest : List Char} (hname : '\\' ∉ name.toList)
    (hrest : isSyntacticName name = true → runsOn rest = false) :
    nextToken (writeName name ++ rest) = some (.name name, rest) := by
  unfold writeName
  split
  · rename_i h
    exact nextToken_symbol h (hrest h)
  · rw [quoteName, List.append_assoc, List.cons_append, List.singleton_append]
    show (readUntil backtick _).map _ = _
    rw [readUntil_quoteName hname]
    simp

theorem nextToken_spaced {op : String} {rest : List Char} (hop : (Token.operator op true).isReadable = true) :
    nextToken ((Token.operator op true).text ++ rest) = some (.operator op true, rest) := by
  obtain ⟨hequals, hblank⟩ : op ≠ "=" ∧ ' ' ∉ op.toList := by
    simpa [Token.isReadable] using hop
  have hop : ∀ c ∈ op.toList, (c != ' ') = true := by
    intro c hc
    simp only [bne_iff_ne]
    rintro rfl
    exact hblank hc
  have htext : (Token.operator op true).text ++ rest = ' ' :: (op.toList ++ ' ' :: rest) := by
    simp [Token.text]
  have hsign : spacedToken op.toList = .operator op true := by
    rw [spacedToken, if_neg, String.ofList_toList]
    intro h
    exact hequals (String.toList_inj.1 h)
  rw [htext, nextToken, List.takeWhile_append_of_pos hop, List.dropWhile_append_of_pos hop]
  simp [hsign]

theorem unspaced_of_isReadable {op : String} (h : (Token.operator op false).isReadable = true) :
    op = "-" ∨ op = "+" ∨ op = ":" ∨ op = "^" ∨ op = "$" ∨ op = "@" := by
  simpa [Token.isReadable] using h

/-- A token is found again, unless it is a word that runs on. -/
theorem nextToken_text {t : Token} {rest : List Char} (ht : t.isReadable = true)
    (hrest : t.isWord = true → runsOn rest = false) : nextToken (t.text ++ rest) = some (t, rest) := by
  cases t with
  | null => exact nextToken_word (by decide) (List.all_eq_true.1 (by decide)) (hrest rfl)
  | bool b => cases b <;> exact nextToken_word (by decide) (List.all_eq_true.1 (by decide)) (hrest rfl)
  | nat n =>
    have hdigits : ∀ c ∈ Layout.digits n, isNamePart c = true := fun c hc =>
      isNamePart_of_isDigit (writesNaturals.isDigit n c hc)
    rw [Token.text, nextToken_word (writesNaturals.ne_nil n) hdigits (hrest rfl), wordToken_digits]
  | string s =>
    have htext : (Token.string s).text ++ rest = '"' :: (s.toList.flatMap written ++ '"' :: rest) := by
      simp [Token.text]
    rw [htext, nextToken, readUntil_written]
    simp
  | name name => exact nextToken_name (by simpa [Token.isReadable] using ht) hrest
  | operator op spaced =>
    cases spaced with
    | true => exact nextToken_spaced ht
    | false =>
      rcases unspaced_of_isReadable ht with rfl | rfl | rfl | rfl | rfl | rfl <;> rfl
  | opened => rfl
  | closed => rfl
  | comma => rfl
  | equals => rfl

/-! ## Sequences of tokens -/

/-- No token is lost in the text: each can be read, and of two neighbours one is no word. -/
structure Lexical (ts : List Token) : Prop where
  readable : ∀ t ∈ ts, t.isReadable = true
  apart : ts.IsChain fun t u => t.isWord = true → u.isWord = false

theorem not_runsOn_text {t : Token} (ht : t.isReadable = true) (hword : t.isWord = false) (rest : List Char) :
    runsOn (t.text ++ rest) = false := by
  cases t with
  | null | bool | nat => cases hword
  | name name =>
    have hname : ¬ isSyntacticName name = true := by simpa [Token.isWord] using hword
    rw [Token.text, writeName, if_neg hname]
    exact not_runsOn_cons (c := backtick) (by decide) _
  | string s => exact not_runsOn_cons (c := '"') (by decide) _
  | operator op spaced =>
    cases spaced with
    | true => exact not_runsOn_cons (c := ' ') (by decide) _
    | false =>
      rcases unspaced_of_isReadable ht with rfl | rfl | rfl | rfl | rfl | rfl <;> exact not_runsOn_cons (by decide) rest
  | opened => exact not_runsOn_cons (c := '(') (by decide) _
  | closed => exact not_runsOn_cons (c := ')') (by decide) _
  | comma => exact not_runsOn_cons (c := ',') (by decide) _
  | equals => exact not_runsOn_cons (c := ' ') (by decide) _

theorem Lexical.nil : Lexical [] := ⟨by simp, List.isChain_nil⟩

theorem Lexical.singleton {t : Token} (ht : t.isReadable = true) : Lexical [t] :=
  ⟨by simpa using ht, List.isChain_singleton t⟩

/-- Tokens on both sides of a sign are apart. -/
theorem Lexical.append_cons {ts us : List Token} {t : Token} (hts : Lexical ts) (ht : t.isReadable = true)
    (hword : t.isWord = false) (hus : Lexical us) : Lexical (ts ++ t :: us) := by
  refine ⟨?_, List.isChain_append.2 ⟨hts.apart, List.isChain_cons.2 ⟨fun u _ h => ?_, hus.apart⟩, ?_⟩⟩
  · intro u hu
    rcases List.mem_append.1 hu with hu | hu
    · exact hts.readable u hu
    · rcases List.mem_cons.1 hu with rfl | hu
      · exact ht
      · exact hus.readable u hu
  · rw [hword] at h
    cases h
  · intro u _ v hv _
    cases hv
    exact hword

theorem Lexical.tail {t : Token} {ts : List Token} (h : Lexical (t :: ts)) : Lexical ts :=
  ⟨fun u hu => h.readable u (List.mem_cons_of_mem t hu), (List.isChain_cons.1 h.apart).2⟩

theorem Lexical.nextToken {t : Token} {ts : List Token} (h : Lexical (t :: ts)) :
    nextToken (textOf (t :: ts)) = some (t, textOf ts) := by
  refine nextToken_text (h.readable t List.mem_cons_self) fun hword => ?_
  cases ts with
  | nil => rfl
  | cons u us =>
    have hu : u.isWord = false := (List.isChain_cons.1 h.apart).1 u rfl hword
    exact not_runsOn_text (h.readable u (by simp)) hu _

/-- Equal texts have the same tokens. -/
theorem eq_of_textOf_eq {ts us : List Token} (hts : Lexical ts) (hus : Lexical us) (h : textOf ts = textOf us) :
    ts = us := by
  induction ts generalizing us with
  | nil =>
    cases us with
    | nil => rfl
    | cons u us =>
      have hu := hus.nextToken
      rw [← h] at hu
      cases hu
  | cons t ts ih =>
    have ht := hts.nextToken
    rw [h] at ht
    cases us with
    | nil => cases ht
    | cons u us =>
      rw [hus.nextToken] at ht
      obtain ⟨rfl, htext⟩ : u = t ∧ textOf us = textOf ts := by simpa using ht
      rw [ih hts.tail hus.tail htext.symm]

end Quotation.Print
