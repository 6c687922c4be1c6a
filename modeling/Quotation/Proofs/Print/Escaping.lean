import Quotation.Proofs.Print.Reader
/-!
# String constants

The text of a string constant holds the string: undoing the escapes from left to right gives it
back, and no such text begins another one (`string_text_lossless`).

Escapes are looked up for bytes, in a table. A loop goes through the bytes of a string and
copies what lies between two escapes as one part, which a string only has where no character
is cut. The loop finds all its parts and yields the body of the constant (`escapeBytes_eq`): the
bytes with an escape are characters of their own, and no byte of a longer character has one.
-/

namespace Quotation.Print

open Text

/-! ## The bytes of characters -/

/-- Characters as bytes. -/
def utf8 (cs : List Char) : List UInt8 := cs.flatMap String.utf8EncodeChar

theorem toByteArray_ofList (cs : List Char) : (String.ofList cs).toByteArray = (utf8 cs).toByteArray := by
  rw [String.toByteArray_ofList, List.utf8Encode, utf8]

theorem toUTF8_ofList (cs : List Char) : (String.ofList cs).toUTF8.data.toList = utf8 cs := by
  rw [String.toUTF8, toByteArray_ofList, List.toList_data_toByteArray]

theorem utf8_append (cs ds : List Char) : utf8 (cs ++ ds) = utf8 cs ++ utf8 ds := List.flatMap_append

theorem utf8_cons (c : Char) (cs : List Char) : utf8 (c :: cs) = String.utf8EncodeChar c ++ utf8 cs :=
  List.flatMap_cons

theorem length_utf8_concat (cs : List Char) (c : Char) :
    (utf8 (cs ++ [c])).length = (utf8 cs).length + (String.utf8EncodeChar c).length := by
  rw [utf8_append, List.length_append, utf8_cons, show utf8 [] = [] from rfl, List.append_nil]

theorem utf8EncodeChar_of_lt {c : Char} (h : c.toNat < 128) : String.utf8EncodeChar c = [UInt8.ofNat c.toNat] :=
  if_pos (Nat.le_of_lt_succ h)

/-- A byte of a longer character is no ASCII character. -/
theorem code_of_mem_utf8EncodeChar {c : Char} {b : UInt8} (h : b ∈ String.utf8EncodeChar c) :
    (c.toNat < 128 ∧ b.toNat = c.toNat) ∨ (128 ≤ c.toNat ∧ 128 ≤ b.toNat) := by
  by_cases hc : c.toNat < 128
  · rw [utf8EncodeChar_of_lt hc, List.mem_singleton] at h
    subst h
    exact .inl ⟨hc, Nat.mod_eq_of_lt (by omega)⟩
  · refine .inr ⟨Nat.not_lt.1 hc, ?_⟩
    have hlong : ¬ c.val.toNat ≤ 127 := fun hle => hc (Nat.lt_succ_of_le hle)
    rw [String.utf8EncodeChar, if_neg hlong] at h
    -- Every byte is made by adding at least 128.
    repeat' split at h
    all_goals simp only [List.mem_cons, List.not_mem_nil, or_false] at h
    · rcases h with rfl | rfl <;> simp only [UInt8.toNat_ofNat'] <;> omega
    · rcases h with rfl | rfl | rfl <;> simp only [UInt8.toNat_ofNat'] <;> omega
    · rcases h with rfl | rfl | rfl | rfl <;> simp only [UInt8.toNat_ofNat'] <;> omega

/-! ## Parts of a string -/

/-- The part of a string between two offsets of its bytes. There is none unless both offsets lie
between characters. -/
def slice? (s : String) (start stop : Nat) : Option (List Char) :=
  if h : start ≤ stop ∧ String.Pos.Raw.IsValid s ⟨start⟩ ∧ String.Pos.Raw.IsValid s ⟨stop⟩ then
    some (s.extract (s.pos ⟨start⟩ h.2.1) (s.pos ⟨stop⟩ h.2.2)).toList
  else none

theorem isValid_utf8 (front back : List Char) :
    String.Pos.Raw.IsValid (String.ofList (front ++ back)) ⟨(utf8 front).length⟩ := by
  rw [String.Pos.Raw.isValid_ofList]
  exact ⟨front.length, by rw [List.take_left, ← String.size_toByteArray, toByteArray_ofList, List.size_toByteArray]⟩

theorem extract_utf8 (front mid back : List Char) :
    (utf8 (front ++ mid ++ back)).toByteArray.extract (utf8 front).length (utf8 (front ++ mid)).length =
      (utf8 mid).toByteArray := by
  rw [utf8_append, utf8_append, List.append_assoc, List.toByteArray_append, List.toByteArray_append, List.length_append,
    ← List.size_toByteArray (l := utf8 front)]
  exact ByteArray.extract_append_size_add (i := 0).trans (ByteArray.extract_append_eq_left List.size_toByteArray.symm)

/-- What lies between characters is a part. -/
theorem slice?_utf8 (front mid back : List Char) :
    slice? (String.ofList (front ++ mid ++ back)) (utf8 front).length (utf8 (front ++ mid)).length = some mid := by
  have hstart := isValid_utf8 front (mid ++ back)
  rw [← List.append_assoc] at hstart
  have hle : (utf8 front).length ≤ (utf8 (front ++ mid)).length := by simp [utf8_append]
  rw [slice?, dif_pos ⟨hle, hstart, isValid_utf8 (front ++ mid) back⟩, Option.some_inj]
  apply String.ofList_injective
  rw [String.ofList_toList, ← String.toByteArray_inj, String.toByteArray_extract, toByteArray_ofList, toByteArray_ofList]
  exact extract_utf8 front mid back

/-! ## The loop over the bytes -/

/-- The escapes of the bytes, sixteen in a row: a letter, `u` for two hexadecimal digits, or a dot for a
byte that stands for itself. -/
def escapeTable : List Char :=
  ["uuuuuuuabtnvfruu", "uuuuuuuuuuuuuuuu", "..\".............", "................",
    "................", "............\\...", "................", "...............u",
    "................", "................", "................", "................",
    "................", "................", "................", "................"].flatMap String.toList

/-- The escape of a byte, if it has one. -/
def byteEscape? (b : UInt8) : Option (List Char) :=
  match escapeTable[b.toNat]? with
  | none => none
  | some '.' => none
  | some 'u' => some ['\\', 'x', Nat.digitChar (b.toNat / 16), Nat.digitChar (b.toNat % 16)]
  | some letter => some ['\\', letter]

/-- Escapes the bytes from the offset `i` on. What begins at `start` has not been copied yet. Without
a part where one is to be copied there is no result. -/
def escapeFrom (s : String) (start i : Nat) : List UInt8 → Option (List Char)
  | [] => if start = i then some [] else slice? s start i
  | b :: bs =>
    match byteEscape? b with
    | none => escapeFrom s start (i + 1) bs
    | some escape =>
      (if start < i then slice? s start i else some []).bind fun part =>
        (escapeFrom s (i + 1) (i + 1) bs).map fun rest => part ++ escape ++ rest

/-- Escapes the bytes of a string. -/
def escapeBytes (s : String) : Option (List Char) := escapeFrom s 0 0 s.toUTF8.data.toList

theorem byteEscape?_row : ∀ row < 8, ∀ column < 16, byteEscape? (UInt8.ofNat (16 * row + column)) =
    if needsEscape (Char.ofNat (16 * row + column)) = true then some (escape (Char.ofNat (16 * row + column)))
    else none := by
  decide +kernel

theorem byteEscape?_row_eq_none : ∀ row < 16, 8 ≤ row → ∀ column < 16,
    byteEscape? (UInt8.ofNat (16 * row + column)) = none := by
  decide +kernel

/-- The table has the escapes of the ASCII characters. -/
theorem byteEscape?_ofNat {k : Nat} (hk : k < 128) : byteEscape? (UInt8.ofNat k) =
    if needsEscape (Char.ofNat k) = true then some (escape (Char.ofNat k)) else none := by
  have hrow := byteEscape?_row (k / 16) (by omega) (k % 16) (by omega)
  rwa [Nat.div_add_mod] at hrow

theorem byteEscape?_eq_none {k : Nat} (hk : k < 256) (hle : 128 ≤ k) : byteEscape? (UInt8.ofNat k) = none := by
  have hrow := byteEscape?_row_eq_none (k / 16) (by omega) (by omega) (k % 16) (by omega)
  rwa [Nat.div_add_mod] at hrow

theorem byteEscape?_of_needsEscape {c : Char} (hc : needsEscape c = true) :
    byteEscape? (UInt8.ofNat c.toNat) = some (escape c) := by
  rw [byteEscape?_ofNat (toNat_lt_of_needsEscape hc), Char.ofNat_toNat, if_pos hc]

theorem byteEscape?_of_mem {c : Char} (hc : needsEscape c = false) {b : UInt8} (h : b ∈ String.utf8EncodeChar c) :
    byteEscape? b = none := by
  rw [← UInt8.ofNat_toNat (x := b)]
  rcases code_of_mem_utf8EncodeChar h with ⟨hlt, hcode⟩ | ⟨-, hle⟩
  · rw [hcode, byteEscape?_ofNat hlt, Char.ofNat_toNat, hc]
    rfl
  · exact byteEscape?_eq_none b.toNat_lt hle

theorem escapeFrom_append {bs : List UInt8} (h : ∀ b ∈ bs, byteEscape? b = none) (s : String) (start i : Nat)
    (rest : List UInt8) : escapeFrom s start i (bs ++ rest) = escapeFrom s start (i + bs.length) rest := by
  induction bs generalizing i with
  | nil => rfl
  | cons b bs ih =>
    rw [List.cons_append, escapeFrom, h b List.mem_cons_self]
    show escapeFrom s start (i + 1) (bs ++ rest) = _
    rw [ih (fun d hd => h d (List.mem_cons_of_mem b hd)), List.length_cons, Nat.add_right_comm, Nat.add_assoc]

theorem flatMap_written {cs : List Char} (h : ∀ c ∈ cs, needsEscape c = false) : cs.flatMap written = cs := by
  induction cs with
  | nil => rfl
  | cons c cs ih =>
    obtain ⟨hc, hcs⟩ := List.forall_mem_cons.1 h
    rw [List.flatMap_cons, ih hcs, written, hc]
    rfl

/-- What has not been copied is nothing, or begins before the next byte. -/
theorem eq_nil_or_length_lt (front part : List Char) :
    part = [] ∨ (utf8 front).length < (utf8 (front ++ part)).length := by
  cases part with
  | nil => exact .inl rfl
  | cons c cs =>
    have hc : 0 < (String.utf8EncodeChar c).length := List.length_pos_of_ne_nil String.utf8EncodeChar_ne_nil
    refine .inr ?_
    rw [utf8_append, utf8_cons, List.length_append, List.length_append]
    omega

/-- The part that has not been copied is there. -/
theorem copied_utf8 (front part back : List Char) :
    (if (utf8 front).length < (utf8 (front ++ part)).length then
      slice? (String.ofList (front ++ part ++ back)) (utf8 front).length (utf8 (front ++ part)).length
      else some []) = some part := by
  rcases eq_nil_or_length_lt front part with rfl | hlt
  · rw [List.append_nil front, if_neg (Nat.lt_irrefl _)]
  · rw [if_pos hlt, slice?_utf8]

/-- The loop between two characters, after a front that has been written and a part that has not. -/
theorem escapeFrom_utf8 (front part rest : List Char) (hpart : ∀ c ∈ part, needsEscape c = false) :
    escapeFrom (String.ofList (front ++ part ++ rest)) (utf8 front).length (utf8 (front ++ part)).length (utf8 rest) =
      some ((part ++ rest).flatMap written) := by
  induction rest generalizing front part with
  | nil =>
    rw [List.append_nil part, flatMap_written hpart]
    show (if _ then _ else _) = _
    rcases eq_nil_or_length_lt front part with rfl | hlt
    · rw [List.append_nil front, if_pos rfl]
    · rw [if_neg (Nat.ne_of_lt hlt), slice?_utf8]
  | cons c cs ih =>
    cases hc : needsEscape c with
    | true =>
      have hbyte := utf8EncodeChar_of_lt (toNat_lt_of_needsEscape hc)
      -- After the escape nothing is left to copy.
      have hrest := ih (front ++ part ++ [c]) [] nofun
      rw [List.append_nil, ← List.append_cons, length_utf8_concat, hbyte, List.length_singleton, List.nil_append] at hrest
      rw [utf8_cons, hbyte, List.singleton_append, escapeFrom, byteEscape?_of_needsEscape hc]
      simp only [copied_utf8, hrest, Option.bind_some, Option.map_some]
      rw [List.flatMap_append, flatMap_written hpart, List.flatMap_cons, written, if_pos hc, List.append_assoc]
    | false =>
      have hrest := ih front (part ++ [c]) (List.forall_mem_append.2 ⟨hpart, by simpa using hc⟩)
      rw [← List.append_assoc, ← List.append_cons, length_utf8_concat, ← List.append_cons] at hrest
      rw [utf8_cons, escapeFrom_append fun b => byteEscape?_of_mem hc]
      exact hrest

/-- The loop finds every part that it copies. -/
theorem escapeBytes_eq (s : String) : escapeBytes s = some (s.toList.flatMap written) := by
  obtain ⟨cs, rfl⟩ := s.exists_eq_ofList
  rw [escapeBytes, toUTF8_ofList, String.toList_ofList]
  exact escapeFrom_utf8 [] [] cs nofun

/-! ## Undoing the escapes -/

/-- A hexadecimal digit as escapes have them. -/
def isHexDigit (c : Char) : Bool := c.isDigit || 'a' ≤ c && c ≤ 'f'

/-- The letters of escapes. -/
def escapeLetters : List Char := ['"', '\\', 'a', 'b', 'f', 'n', 'r', 't', 'v']

/-- The character that a letter stands for after a backslash, if it is the letter of an escape. -/
def unescape? (letter : Char) : Option Char :=
  if escapeLetters.contains letter then some (unescape letter) else none

/-- The characters of the body of a string constant. A backslash begins an escape, of a letter or of two
hexadecimal digits, and a quote is part of one. -/
def unescapeAll : List Char → Option (List Char)
  | [] => some []
  | '\\' :: 'x' :: high :: low :: rest =>
    if isHexDigit high && isHexDigit low then
      (unescapeAll rest).map (Char.ofNat (16 * hexValue high + hexValue low) :: ·)
    else none
  | '\\' :: letter :: rest => (unescape? letter).bind fun c => (unescapeAll rest).map (c :: ·)
  | c :: rest => if c = '\\' ∨ c = '"' then none else (unescapeAll rest).map (c :: ·)

theorem isHexDigit_digitChar : ∀ k < 16, isHexDigit (Nat.digitChar k) = true := by decide

theorem mem_escapeLetters {c letter : Char} (h : escapeLetter? c = some letter) : letter ∈ escapeLetters := by
  unfold escapeLetter? at h
  repeat' split at h
  all_goals cases h
  all_goals decide

theorem unescape?_of_escapeLetter? {c letter : Char} (h : escapeLetter? c = some letter) :
    unescape? letter = some c := by
  rw [unescape?, if_pos (List.contains_iff_mem.2 (mem_escapeLetters h)), (unescape_of_escapeLetter? h).2]

theorem unescapeAll_written_cons (c : Char) (rest : List Char) :
    unescapeAll (written c ++ rest) = (unescapeAll rest).map (c :: ·) := by
  unfold written
  split
  · rename_i hc
    unfold escape
    cases hletter : escapeLetter? c with
    | some letter =>
      have hx := (unescape_of_escapeLetter? hletter).1
      simp [unescapeAll, hx, unescape?_of_escapeLetter? hletter]
    | none =>
      have hcode := toNat_lt_of_needsEscape hc
      have hhigh : c.toNat / 16 < 16 := by omega
      have hlow : c.toNat % 16 < 16 := by omega
      have hc : Char.ofNat (16 * (c.toNat / 16) + c.toNat % 16) = c := by
        rw [Nat.div_add_mod, Char.ofNat_toNat]
      simp [unescapeAll, isHexDigit_digitChar _ hhigh, isHexDigit_digitChar _ hlow, hexValue_digitChar _ hhigh,
        hexValue_digitChar _ hlow, hc]
  · rename_i hc
    simp only [needsEscape, Bool.or_eq_true, beq_iff_eq, not_or] at hc
    simp [unescapeAll, hc.1.1.1, hc.1.1.2]

/-- Undoing the escapes gives the characters back. -/
theorem unescapeAll_written (cs : List Char) : unescapeAll (cs.flatMap written) = some cs := by
  induction cs with
  | nil => rfl
  | cons c cs ih =>
    rw [List.flatMap_cons, unescapeAll_written_cons, ih]
    rfl

/-! ## The body -/

/-- What stands between the quotes of a string constant. -/
structure IsBodyOf (body : List Char) (s : String) : Prop where
  /-- There are no control characters, and neither is there a delete. -/
  printable : ∀ b ∈ (String.ofList body).toUTF8.data, 0x20 ≤ b ∧ b ≠ 0x7F
  /-- Before a quote stands the backslash that escapes it, after whole characters and escapes. -/
  quoted : ∀ front rest, body = front ++ '"' :: rest → ∃ start cs, front = start ++ ['\\'] ∧ unescapeAll start = some cs
  restored : unescapeAll body = some s.toList

theorem code_of_mem_escapeLetters : ∀ letter ∈ escapeLetters, 0x20 ≤ letter.toNat ∧ letter.toNat < 0x7F := by
  simp [escapeLetters]

theorem code_digitChar : ∀ k < 16, 0x20 ≤ (Nat.digitChar k).toNat ∧ (Nat.digitChar k).toNat < 0x7F := by decide

theorem digitChar_ne_quote : ∀ k < 16, Nat.digitChar k ≠ '"' := by decide

theorem code_of_mem_escape {c d : Char} (hc : needsEscape c = true) (h : d ∈ escape c) :
    0x20 ≤ d.toNat ∧ d.toNat < 0x7F := by
  have hcode := toNat_lt_of_needsEscape hc
  unfold escape at h
  cases hletter : escapeLetter? c with
  | some letter =>
    obtain rfl | rfl : d = '\\' ∨ d = letter := by simpa [hletter] using h
    · decide
    · exact code_of_mem_escapeLetters _ (mem_escapeLetters hletter)
  | none =>
    obtain rfl | rfl | rfl | rfl :
        d = '\\' ∨ d = 'x' ∨ d = Nat.digitChar (c.toNat / 16) ∨ d = Nat.digitChar (c.toNat % 16) := by
      simpa [hletter] using h
    · decide
    · decide
    · exact code_digitChar _ (by omega)
    · exact code_digitChar _ (by omega)

theorem code_of_mem_written {c d : Char} (h : d ∈ written c) : 0x20 ≤ d.toNat ∧ d.toNat ≠ 0x7F := by
  unfold written at h
  split at h
  · rename_i hc
    obtain ⟨hle, hlt⟩ := code_of_mem_escape hc h
    exact ⟨hle, Nat.ne_of_lt hlt⟩
  · rename_i hc
    rw [List.mem_singleton] at h
    subst d
    simp only [needsEscape, Bool.or_eq_true, beq_iff_eq, decide_eq_true_eq, not_or, Nat.not_lt] at hc
    exact ⟨hc.1.2, hc.2⟩

/-- A quote is only written for itself. -/
theorem written_of_mem_quote {c : Char} (h : '"' ∈ written c) : written c = ['\\', '"'] := by
  unfold written at h ⊢
  split at h
  · rename_i hc
    have hcode := toNat_lt_of_needsEscape hc
    rw [if_pos hc]
    unfold escape at h ⊢
    cases hletter : escapeLetter? c with
    | some letter =>
      obtain rfl : '"' = letter := by simpa [hletter] using h
      rfl
    | none =>
      have hhigh := (digitChar_ne_quote (c.toNat / 16) (by omega)).symm
      have hlow := (digitChar_ne_quote (c.toNat % 16) (by omega)).symm
      simp [hletter, hhigh, hlow] at h
  · rename_i hc
    rw [List.mem_singleton] at h
    subst c
    exact absurd rfl hc

theorem printable_written (cs : List Char) :
    ∀ b ∈ (String.ofList (cs.flatMap written)).toUTF8.data, 0x20 ≤ b ∧ b ≠ 0x7F := by
  intro b hb
  rw [← Array.mem_toList_iff, toUTF8_ofList, utf8, List.mem_flatMap] at hb
  obtain ⟨d, hd, hb⟩ := hb
  obtain ⟨c, -, hd⟩ := List.mem_flatMap.1 hd
  obtain ⟨hle, hne⟩ := code_of_mem_written hd
  rw [UInt8.le_iff_toNat_le, ne_eq, ← UInt8.toNat_inj]
  show 0x20 ≤ b.toNat ∧ b.toNat ≠ 0x7F
  rcases code_of_mem_utf8EncodeChar hb with ⟨-, hcode⟩ | ⟨-, hlarge⟩
  · rw [hcode]
    exact ⟨hle, hne⟩
  · omega

/-- Before a quote stands its backslash. -/
theorem quoted_written (cs : List Char) (front rest : List Char) (h : cs.flatMap written = front ++ '"' :: rest) :
    ∃ start ds, front = start ++ ['\\'] ∧ unescapeAll start = some ds := by
  induction cs generalizing front with
  | nil => simp at h
  | cons c cs ih =>
    rw [List.flatMap_cons, List.append_eq_append_iff] at h
    rcases h with ⟨more, rfl, hmore⟩ | ⟨back, hback, hrest⟩
    · obtain ⟨start, ds, rfl, hstart⟩ := ih more hmore
      refine ⟨written c ++ start, c :: ds, (List.append_assoc ..).symm, ?_⟩
      rw [unescapeAll_written_cons, hstart]
      rfl
    · cases back with
      | nil =>
        -- The quote begins what is written for the other characters.
        obtain ⟨start, -, hnil, -⟩ := ih [] hrest.symm
        simp at hnil
      | cons d back =>
        obtain ⟨rfl, -⟩ := List.cons.inj hrest
        rw [written_of_mem_quote (by rw [hback]; simp)] at hback
        match front, hback with
        | [], hback => exact absurd (List.cons.inj hback).1 (by decide)
        | [e], hback => exact ⟨[], [], by rw [(List.cons.inj hback).1]; rfl, rfl⟩
        | _ :: _ :: _, hback => simp at hback

theorem isBodyOf_written (s : String) : IsBodyOf (s.toList.flatMap written) s where
  printable := printable_written s.toList
  quoted := quoted_written s.toList
  restored := unescapeAll_written s.toList

/-! ## The text -/

theorem toList_text_string (s : String) :
    (Node.const (.string s)).text.toList = '"' :: s.toList.flatMap written ++ ['"'] := by
  have hspells : textOf [.string s] = (Node.const (.string s)).print .between (.standard true) := (spells_string s).text
  rw [Node.text, String.toList_ofList, ← hspells, textOf, List.flatMap_singleton, Token.text]

/-- The text of a string constant ends where its last quote is. -/
theorem isPrefix_text_string_iff (s t : String) :
    (Node.const (.string s)).text.toList <+: (Node.const (.string t)).text.toList ↔ s = t := by
  refine ⟨fun ⟨rest, h⟩ => ?_, fun h => h ▸ List.prefix_rfl⟩
  simp only [toList_text_string, List.cons_append, List.append_assoc, List.cons.injEq, true_and, List.nil_append] at h
  have hread := readUntil_written s.toList rest
  rw [h, readUntil_written] at hread
  obtain ⟨hst, -⟩ : t.toList = s.toList ∧ _ := by simpa using hread
  exact (String.toList_inj.1 hst).symm

/-- The text of a string constant is a body between quotes. The loop over the bytes yields the body,
undoing its escapes gives the string back, and no such text is the beginning of another one. -/
theorem string_text_lossless (s : String) :
    (∃ body, (Node.const (.string s)).text.toList = '"' :: body ++ ['"'] ∧ escapeBytes s = some body ∧ IsBodyOf body s) ∧
      ∀ t : String, (Node.const (.string s)).text.toList <+: (Node.const (.string t)).text.toList ↔ s = t :=
  ⟨⟨_, toList_text_string s, escapeBytes_eq s, isBodyOf_written s⟩, isPrefix_text_string_iff s⟩

end Quotation.Print
