import Quotation.Proofs.Surface.Reading
import Quotation.Proofs.Text.Conventions
/-!
# Written forms

Every form can be written in the surface notation. `Writes` says how: what identifiers
spell in no other way begins with `#`, applications and argument lists are groups, and
nothing depends on the blanks after a mark, but for the one after the minus of a negated
literal. Each form is read back to where its tokens end (`item_of_writes`), so a written
form is read as the form (`read_stream_of_writes`).

A literal with a sign is a minus and a literal in a stream, and reads as negated.
-/

namespace Quotation.Surface

/-! ## The notation of forms -/

mutual
/-- The tokens that write a form. -/
inductive Writes : Form → List Token → Prop where
  | nil (joint : Bool) : Writes .nil [.punct '#' joint, .ident "nil"]
  | missing (joint : Bool) : Writes .missing [.punct '#' joint, .ident "missing"]
  | bool (joint b : Bool) : Writes (.bool b) [.punct '#' joint, .ident (if b then "t" else "f")]
  | literal (text : String) : Writes (.literal text) [.literal text]
  | negated (text : String) : Writes (.negated text) [.punct '-' false, .literal text]
  | ident (joint : Bool) (name : String) : Writes (.ident name) [.punct '#' joint, Code.string name]
  | unquote {f : Form} {ts : List Token} (joint : Bool) (h : Writes f ts) :
    Writes (.unquote f) (.punct ',' joint :: ts)
  | splice {f : Form} {ts : List Token} (joint joint' : Bool) (h : Writes f ts) :
    Writes (.splice f) (.punct ',' joint :: .punct '@' joint' :: ts)
  | apply {head : Form} {args : List (Arg Form)} {ts us : List Token} (h : Writes head ts)
    (hargs : WritesArgs args us) : Writes (.apply head args) [.group .paren (ts ++ us)]
  | list {args : List (Arg Form)} {us : List Token} (joint : Bool) (hargs : WritesArgs args us) :
    Writes (.list args) [.punct '#' joint, .group .paren us]

/-- The tokens that write arguments. -/
inductive WritesArgs : List (Arg Form) → List Token → Prop where
  | nil : WritesArgs [] []
  | unnamed {f : Form} {args : List (Arg Form)} {ts us : List Token} (h : Writes f ts) (hargs : WritesArgs args us) :
    WritesArgs (.unnamed f :: args) (ts ++ us)
  | named {f : Form} {args : List (Arg Form)} {ts us : List Token} (joint joint' : Bool) (name : String)
    (h : Writes f ts) (hargs : WritesArgs args us) :
    WritesArgs (.named name f :: args) (.punct '#' joint :: .punct ':' joint' :: Code.string name :: (ts ++ us))
end

mutual
theorem exists_writes : ∀ f : Form, ∃ ts, Writes f ts
  | .nil => ⟨_, .nil false⟩
  | .missing => ⟨_, .missing false⟩
  | .literal text => ⟨_, .literal text⟩
  | .negated text => ⟨_, .negated text⟩
  | .bool b => ⟨_, .bool false b⟩
  | .ident name => ⟨_, .ident false name⟩
  | .unquote f => by
    obtain ⟨ts, h⟩ := exists_writes f
    exact ⟨_, .unquote false h⟩
  | .splice f => by
    obtain ⟨ts, h⟩ := exists_writes f
    exact ⟨_, .splice false false h⟩
  | .apply head args => by
    obtain ⟨ts, h⟩ := exists_writes head
    obtain ⟨us, hargs⟩ := exists_writesArgs args
    exact ⟨_, .apply h hargs⟩
  | .list args => by
    obtain ⟨us, hargs⟩ := exists_writesArgs args
    exact ⟨_, .list false hargs⟩

theorem exists_writesArgs : ∀ args : List (Arg Form), ∃ us, WritesArgs args us
  | [] => ⟨_, .nil⟩
  | ⟨none, f⟩ :: args => by
    obtain ⟨ts, h⟩ := exists_writes f
    obtain ⟨us, hargs⟩ := exists_writesArgs args
    exact ⟨_, .unnamed h hargs⟩
  | ⟨some name, f⟩ :: args => by
    obtain ⟨ts, h⟩ := exists_writes f
    obtain ⟨us, hargs⟩ := exists_writesArgs args
    exact ⟨_, .named false false name h hargs⟩
end

/-! ## Names and literals -/

mutual
/-- The identifiers of a form and the names of its arguments. -/
def Form.names : Form → List String
  | .nil => []
  | .missing => []
  | .literal _ => []
  | .negated _ => []
  | .bool _ => []
  | .ident name => [name]
  | .unquote form => form.names
  | .splice form => form.names
  | .apply head args => head.names ++ argNames args
  | .list args => argNames args

def argNames : List (Arg Form) → List String
  | [] => []
  | a :: as => a.name.toList ++ a.value.names ++ argNames as
end

mutual
/-- The literals of a form, as they are written. -/
def Form.literals : Form → List String
  | .nil => []
  | .missing => []
  | .literal text => [text]
  | .negated text => [text]
  | .bool _ => []
  | .ident _ => []
  | .unquote form => form.literals
  | .splice form => form.literals
  | .apply head args => head.literals ++ argLiterals args
  | .list args => argLiterals args

def argLiterals : List (Arg Form) → List String
  | [] => []
  | a :: as => a.value.literals ++ argLiterals as
end

/-- A plain name is what stands between the quotes of its literal. -/
theorem body_of_plain {name : String} (h : IsPlain name) : body name = name := by
  rw [body, literalBody_of_plain h, String.ofList_toList]

/-! ## Streams -/

theorem spread_string (name : String) : (Code.string name).spread = [Code.string name] :=
  writesStrings.spread spreadsLiterals name

theorem stream_append (ts us : List Token) : Token.stream (ts ++ us) = Token.stream ts ++ Token.stream us := by
  induction ts with
  | nil => rfl
  | cons t ts ih => simp [Token.stream, ih]

mutual
/-- What writes a form without signs is a stream as it stands. -/
theorem stream_of_writes {f : Form} {ts : List Token} (h : Writes f ts) (hf : ∀ text ∈ f.literals, IsUnsigned text) :
    Token.stream ts = ts := by
  cases h with
  | nil | missing | bool => rfl
  | literal text => simp [Token.stream, spreadsLiterals.unsigned text (hf text (by simp [Form.literals]))]
  | negated text =>
    have htext := spreadsLiterals.unsigned text (hf text (by simp [Form.literals]))
    rw [Token.stream, Token.stream, htext]
    rfl
  | ident joint name => simp [Token.stream, Token.spread, spread_string]
  | unquote joint h => simp [Token.stream, Token.spread, stream_of_writes h hf]
  | splice joint joint' h => simp [Token.stream, Token.spread, stream_of_writes h hf]
  | apply h hargs =>
    have hhead := stream_of_writes h fun text ht => hf text (by simp [Form.literals, ht])
    have hrest := stream_of_writesArgs hargs fun text ht => hf text (by simp [Form.literals, ht])
    simp [Token.stream, Token.spread, stream_append, hhead, hrest]
  | list joint hargs => simp [Token.stream, Token.spread, stream_of_writesArgs hargs hf]

theorem stream_of_writesArgs {args : List (Arg Form)} {us : List Token} (h : WritesArgs args us)
    (hf : ∀ text ∈ argLiterals args, IsUnsigned text) : Token.stream us = us := by
  cases h with
  | nil => rfl
  | unnamed h hargs =>
    have hvalue := stream_of_writes h fun text ht => hf text (by simp [argLiterals, Arg.unnamed, ht])
    have hrest := stream_of_writesArgs hargs fun text ht => hf text (by simp [argLiterals, ht])
    rw [stream_append, hvalue, hrest]
  | named joint joint' name h hargs =>
    have hvalue := stream_of_writes h fun text ht => hf text (by simp [argLiterals, Arg.named, ht])
    have hrest := stream_of_writesArgs hargs fun text ht => hf text (by simp [argLiterals, ht])
    simp [Token.stream, Token.spread, spread_string, stream_append, hvalue, hrest]
end

/-! ## Reading what is written -/

/-- No written form begins with the mark of a splice. -/
theorem ne_mark_of_writes {f : Form} {ts : List Token} (h : Writes f ts) (rest : List Token) (joint : Bool)
    (us : List Token) : ts ++ rest ≠ .punct '@' joint :: us := by
  cases h <;> simp

mutual
/-- A written form is read up to where its tokens end, whatever follows. -/
theorem item_of_writes {f : Form} {ts : List Token} (h : Writes f ts) (hf : ∀ name ∈ f.names, IsPlain name)
    (rest : List Token) : readItem (ts ++ rest) = .ok (.form f, rest) := by
  cases h with
  | nil joint | missing joint => exact readItem_hash joint _
  | bool joint b =>
    cases b
    · exact readItem_hash joint _
    · exact readItem_hash joint _
  | literal text => exact readItem_literal text rest
  | negated text => exact readItem_operator rfl false _
  | ident joint name =>
    have hname := readItem_ident joint name rest
    rwa [body_of_plain (hf name (by simp [Form.names]))] at hname
  | unquote joint h =>
    have hoperand := readForm_of_readItem (item_of_writes h hf rest)
    exact readItem_unquote hoperand (ne_mark_of_writes h rest) joint
  | splice joint joint' h =>
    have hoperand := readForm_of_readItem (item_of_writes h hf rest)
    exact readItem_splice hoperand joint joint'
  | @apply head args ts us h hargs =>
    have hhead := readForm_of_readItem (item_of_writes h (fun name hname => hf name (by simp [Form.names, hname])) us)
    have hrest := args_of_writes hargs fun name hname => hf name (by simp [Form.names, hname])
    exact readItem_paren hhead hrest rest
  | list joint hargs => exact readItem_list (args_of_writes hargs hf) joint rest

theorem args_of_writes {args : List (Arg Form)} {us : List Token} (h : WritesArgs args us)
    (hf : ∀ name ∈ argNames args, IsPlain name) : readArgs us = .ok args := by
  cases h with
  | nil => exact readArgs_nil
  | @unnamed f args ts us h hargs =>
    have hvalue := item_of_writes h (fun name hname => hf name (by simp [argNames, Arg.unnamed, hname])) us
    have hrest := args_of_writes hargs fun name hname => hf name (by simp [argNames, hname])
    exact readArgs_of_argument (readArgument_of_form hvalue) hrest
  | @named f args ts us joint joint' name h hargs =>
    have hvalue := readForm_of_readItem
      (item_of_writes h (fun name hname => hf name (by simp [argNames, Arg.named, hname])) us)
    have hrest := args_of_writes hargs fun name hname => hf name (by simp [argNames, hname])
    have hnamed := (readArgument_named hvalue name joint joint').1
    rw [body_of_plain (hf name (by simp [argNames, Arg.named]))] at hnamed
    exact readArgs_of_argument hnamed hrest
end

/-- Every form can be written, and what writes it is read as the form, whatever the blanks after its
marks, if its names are plain and its literals have no sign. -/
theorem read_stream_of_writes {f : Form} (hnames : ∀ name ∈ f.names, IsPlain name)
    (hliterals : ∀ text ∈ f.literals, IsUnsigned text) :
    (∃ ts, Writes f ts) ∧ ∀ ts, Writes f ts → read (Token.stream ts) = .ok f := by
  refine ⟨exists_writes f, fun ts h => ?_⟩
  have hitem := item_of_writes h hnames []
  rw [List.append_nil] at hitem
  rw [stream_of_writes h hliterals, read_of_readItem hitem]

/-- The form of `(f #:"g h" -1 ,,@- #(#t #:"" "s"))`, with the blanks in odd places. -/
theorem read_stream_of_writes_call : ∃ f ts, (∀ name ∈ f.names, IsPlain name) ∧
    (∀ text ∈ f.literals, IsUnsigned text) ∧ Writes f ts ∧ read (Token.stream ts) = .ok f := by
  let inner : List (Arg Form) := [.unnamed (.bool true), .named "" (.literal "\"s\"")]
  let f : Form := .apply (.ident "f")
    [.named "g h" (.negated "1"), .unnamed (.unquote (.splice (.ident "-"))), .unnamed (.list inner)]
  have hnames : ∀ name ∈ f.names, IsPlain name := by decide
  have hliterals : ∀ text ∈ f.literals, IsUnsigned text := by decide
  have h : Writes f _ := .apply (.ident true "f") <| .named false true "g h" (.negated "1") <|
    .unnamed (.unquote true (.splice true false (.ident false "-"))) <|
    .unnamed (.list true (.unnamed (.bool false true) (.named true false "" (.literal _) .nil))) .nil
  exact ⟨f, _, hnames, hliterals, h, (read_stream_of_writes hnames hliterals).2 _ h⟩

/-- The literal `-5` has no names, and is read as the literal `5` negated. -/
theorem not_read_stream_of_sign : ¬ ∀ f ts, (∀ name ∈ f.names, IsPlain name) → Writes f ts →
    read (Token.stream ts) = .ok f := by
  intro h
  have hread : read (Token.stream [.literal "-5"]) = .ok (.negated "5") := by rfl
  have hliteral : read (Token.stream [.literal "-5"]) = .ok (.literal "-5") := h _ _ nofun (.literal "-5")
  rw [hread] at hliteral
  cases hliteral

end Quotation.Surface
