import Mathlib.Data.List.Forall2
import Quotation.Proofs.Surface.Literal
import Quotation.Tree.Syntax
/-!
# What generated code denotes

Generated code is an expression: calls of constructors, vectors and operands. `items?` reads expressions from
tokens, whatever they construct, and `build?` carries one out with the functions that its paths name. The code of a
form builds the form's tree, whatever the functions are (`builds_code`): host syntax of the same shape, or the form
itself, so that the code of two forms is never the same (`code_denotes`).

A string or a literal is one token of the code. A stream takes a literal with a sign apart, and keeps all other code
as it is (`stream_code`), so that it denotes the same (`stream_denotes`). With its sign taken apart a literal denotes
a negation (`stream_code_signed`).
-/

namespace Quotation.Surface

/-! ## Expressions -/

/-- An operand that is written out. -/
inductive Operand where
  | unit
  | bool (b : Bool)
  | literal (text : String)
  /-- a literal with a minus before it -/
  | negated (text : String)

inductive Expression where
  | operand (o : Operand)
  /-- a call of the function at an absolute path -/
  | call (path : List String) (arguments : List Expression)
  | vector (items : List Expression)

namespace Expression

/-- How much of an item between commas has been read. -/
inductive Progress where
  /-- nothing, of an item that has to come if there is a comma before it -/
  | start (first : Bool)
  /-- a path, whose arguments come next -/
  | path (parts : List String)
  | done (e : Expression)

mutual
/-- The expressions in a group. -/
def inside? (delimiter : Delimiter) : Token → Option (List Expression)
  | .group d tokens => if d = delimiter then items? (.start true) tokens else none
  | _ => none

/-- The expressions between commas, up to the last token. -/
def items? : Progress → List Token → Option (List Expression)
  | .start first, [] => if first then some [] else none
  | .path _, [] => none
  | .done e, [] => some [e]
  | .done e, .punct ',' _ :: rest => (items? (.start false) rest).map (e :: ·)
  | .done _, _ :: _ => none
  | .path parts, .punct ':' true :: .punct ':' false :: .ident part :: rest => items? (.path (parts ++ [part])) rest
  | .path parts, group :: rest =>
    (inside? .paren group).bind fun arguments => items? (.done (.call parts arguments)) rest
  | .start _, .punct ':' true :: .punct ':' false :: .ident part :: rest => items? (.path [part]) rest
  | .start _, .ident "vec" :: .punct '!' _ :: group :: rest =>
    (inside? .bracket group).bind fun items => items? (.done (.vector items)) rest
  | .start _, .group .paren [] :: rest => items? (.done (.operand .unit)) rest
  | .start _, .ident "true" :: rest => items? (.done (.operand (.bool true))) rest
  | .start _, .ident "false" :: rest => items? (.done (.operand (.bool false))) rest
  | .start _, .literal text :: rest => items? (.done (.operand (.literal text))) rest
  | .start _, .punct '-' _ :: .literal text :: rest => items? (.done (.operand (.negated text))) rest
  | .start _, _ => none
end

/-- The expression that tokens spell, with none left. -/
def read? (tokens : List Token) : Option Expression :=
  match items? (.start true) tokens with
  | some [e] => some e
  | _ => none

end Expression

/-! ## Construction -/

/-- The functions that generated code calls. -/
structure Constructors (α : Type) where
  literal : Operand → α
  ident : String → α
  missing : α
  unquote : α → α
  splice : α → α
  apply : α → List (Arg α) → α
  list : List (Arg α) → α

variable {α : Type}

namespace Expression

mutual
/-- What an expression constructs, if all its calls are of constructors. -/
def build? (k : Constructors α) : Expression → Option α
  | .call ["quasi", "Syntax", "literal"] [.operand o] => some (k.literal o)
  | .call ["quasi", "Syntax", "missing"] [] => some k.missing
  | .call ["quasi", "Syntax", "ident"] [.operand (.literal text)] => (Token.literal text).content?.map k.ident
  | .call ["quasi", "Syntax", "unquote"] [e] => (build? k e).map k.unquote
  | .call ["quasi", "Syntax", "unquote_splice"] [e] => (build? k e).map k.splice
  | .call ["quasi", "Syntax", "apply"] [head, .vector items] =>
    (build? k head).bind fun head => (buildArgs? k items).map fun args => k.apply head args
  | .call ["quasi", "Syntax", "list"] [.vector items] => (buildArgs? k items).map k.list
  | _ => none

/-- The arguments that expressions construct. -/
def buildArgs? (k : Constructors α) : List Expression → Option (List (Arg α))
  | [] => some []
  | .call ["quasi", "SyntaxArg", "named"] [.operand (.literal text), e] :: rest =>
    (Token.literal text).content?.bind fun name => (build? k e).bind fun value =>
      (buildArgs? k rest).map fun args => .named name value :: args
  | .call ["quasi", "SyntaxArg", "positional"] [e] :: rest =>
    (build? k e).bind fun value => (buildArgs? k rest).map fun args => .unnamed value :: args
  | _ => none
end

end Expression

mutual
/-- A form with other constructors in place of its own. -/
def Form.fold (k : Constructors α) : Form → α
  | .nil => k.literal .unit
  | .missing => k.missing
  | .literal text => k.literal (.literal text)
  | .negated text => k.literal (.negated text)
  | .bool b => k.literal (.bool b)
  | .ident name => k.ident name
  | .unquote form => k.unquote (form.fold k)
  | .splice form => k.splice (form.fold k)
  | .apply head args => k.apply (head.fold k) (foldArgs k args)
  | .list args => k.list (foldArgs k args)

def foldArgs (k : Constructors α) : List (Arg Form) → List (Arg α)
  | [] => []
  | a :: as => ⟨a.name, a.value.fold k⟩ :: foldArgs k as
end

mutual
/-- The host syntax of a form. A literal is given by its sign and its text, and `value` says which constant it is. -/
def Form.host (value : Bool → String → Constant) : Form → Syntax
  | .nil => .literal .null
  | .missing => .missing
  | .literal text => .literal (value false text)
  | .negated text => .literal (value true text)
  | .bool b => .literal (.bool b)
  | .ident name => .ident name
  | .unquote form => .unquote (form.host value)
  | .splice form => .splice (form.host value)
  | .apply head args => .apply (head.host value) (hostArgs value args)
  | .list args => .list (hostArgs value args)

def hostArgs (value : Bool → String → Constant) : List (Arg Form) → List (Arg Syntax)
  | [] => []
  | a :: as => ⟨a.name, a.value.host value⟩ :: hostArgs value as
end

namespace Constructors

/-- The constructors of host syntax. -/
def host (value : Bool → String → Constant) : Constructors Syntax where
  literal
    | .unit => .literal .null
    | .bool b => .literal (.bool b)
    | .literal text => .literal (value false text)
    | .negated text => .literal (value true text)
  ident := .ident
  missing := .missing
  unquote := .unquote
  splice := .splice
  apply := .apply
  list := .list

/-- The constructors of forms. -/
def forms : Constructors Form where
  literal
    | .unit => .nil
    | .bool b => .bool b
    | .literal text => .literal text
    | .negated text => .negated text
  ident := .ident
  missing := .missing
  unquote := .unquote
  splice := .splice
  apply := .apply
  list := .list

end Constructors

mutual
theorem fold_host (value : Bool → String → Constant) : ∀ f : Form, f.fold (.host value) = f.host value
  | .nil | .missing | .literal _ | .negated _ | .bool _ | .ident _ => rfl
  | .unquote f => congrArg Syntax.unquote (fold_host value f)
  | .splice f => congrArg Syntax.splice (fold_host value f)
  | .apply head args => congrArg₂ Syntax.apply (fold_host value head) (foldArgs_host value args)
  | .list args => congrArg Syntax.list (foldArgs_host value args)

theorem foldArgs_host (value : Bool → String → Constant) :
    ∀ args : List (Arg Form), foldArgs (.host value) args = hostArgs value args
  | [] => rfl
  | ⟨name, f⟩ :: args => congrArg₂ (fun v vs => Arg.mk name v :: vs) (fold_host value f) (foldArgs_host value args)
end

mutual
theorem fold_forms : ∀ f : Form, f.fold .forms = f
  | .nil | .missing | .literal _ | .negated _ | .bool _ | .ident _ => rfl
  | .unquote f => congrArg Form.unquote (fold_forms f)
  | .splice f => congrArg Form.splice (fold_forms f)
  | .apply head args => congrArg₂ Form.apply (fold_forms head) (foldArgs_forms args)
  | .list args => congrArg Form.list (foldArgs_forms args)

theorem foldArgs_forms : ∀ args : List (Arg Form), foldArgs .forms args = args
  | [] => rfl
  | ⟨name, f⟩ :: args => congrArg₂ (fun v vs => Arg.mk name v :: vs) (fold_forms f) (foldArgs_forms args)
end

/-! ## Reading code back -/

namespace Expression

/-- Tokens that are read as an expression wherever one may begin, and whatever follows. -/
def Spells (ts : List Token) (e : Expression) : Prop :=
  ∀ first rest, items? (.start first) (ts ++ rest) = items? (.done e) rest

theorem read?_of_spells {ts : List Token} {e : Expression} (h : Spells ts e) : read? ts = some e := by
  have hitems : items? (.start true) ts = some [e] := by simpa [items?] using h true []
  rw [read?, hitems]

/-- Commas come between expressions and not after the last one. -/
theorem items?_commaSeparated {tss : List (List Token)} {es : List Expression} (h : List.Forall₂ Spells tss es)
    (first : Bool) (hfirst : first = false → tss ≠ []) :
    items? (.start first) (Code.commaSeparated tss) = some es := by
  induction h generalizing first with
  | nil =>
    cases first
    · exact absurd rfl (hfirst rfl)
    · rfl
  | @cons ts e tss es hspells hrest ih =>
    cases tss with
    | nil =>
      cases hrest
      show items? (.start first) ts = some [e]
      simpa [items?] using hspells first []
    | cons us tss =>
      have htail := ih false fun _ => List.cons_ne_nil us tss
      calc items? (.start first) (ts ++ Code.comma :: Code.commaSeparated (us :: tss))
          = items? (.done e) (Code.comma :: Code.commaSeparated (us :: tss)) := hspells first _
        _ = (items? (.start false) (Code.commaSeparated (us :: tss))).map (e :: ·) := rfl
        _ = some (e :: es) := by rw [htail, Option.map_some]

theorem items?_path (before parts : List String) (rest : List Token) :
    items? (.path before) (Code.path parts ++ rest) = items? (.path (before ++ parts)) rest := by
  induction parts generalizing before with
  | nil => rw [List.append_nil]; rfl
  | cons part parts ih =>
    rw [List.append_cons]
    exact ih (before ++ [part])

theorem spells_call (part : String) (parts : List String) {tss : List (List Token)} {es : List Expression}
    (h : List.Forall₂ Spells tss es) :
    Spells (Code.call (part :: parts) (Code.commaSeparated tss)) (.call (part :: parts) es) := by
  intro first rest
  have harguments := items?_commaSeparated h true nofun
  rw [Code.call, List.append_assoc]
  calc items? (.start first) (Code.path (part :: parts) ++ .group .paren (Code.commaSeparated tss) :: rest)
      = items? (.path [part]) (Code.path parts ++ .group .paren (Code.commaSeparated tss) :: rest) := rfl
    _ = items? (.path (part :: parts)) (.group .paren (Code.commaSeparated tss) :: rest) := items?_path [part] parts _
    _ = (items? (.start true) (Code.commaSeparated tss)).bind fun es =>
        items? (.done (.call (part :: parts) es)) rest := rfl
    _ = items? (.done (.call (part :: parts) es)) rest := by rw [harguments, Option.bind_some]

theorem spells_construct (constructor : String) {tss : List (List Token)} {es : List Expression}
    (h : List.Forall₂ Spells tss es) :
    Spells (Code.construct constructor (Code.commaSeparated tss)) (.call ["quasi", "Syntax", constructor] es) :=
  spells_call _ _ h

theorem spells_vector {tss : List (List Token)} {es : List Expression} (h : List.Forall₂ Spells tss es) :
    Spells (Code.vector tss) (.vector es) := by
  intro first rest
  calc items? (.start first) (Code.vector tss ++ rest)
      = (items? (.start true) (Code.commaSeparated tss)).bind fun es => items? (.done (.vector es)) rest := rfl
    _ = items? (.done (.vector es)) rest := by rw [items?_commaSeparated h true nofun, Option.bind_some]

theorem spells_string (s : String) : Spells [Code.string s] (.operand (.literal (String.ofList (Text.literal s)))) :=
  fun _ _ => rfl

end Expression

open Expression

/-- Tokens that spell an expression which constructs the given thing. -/
def Builds (k : Constructors α) (ts : List Token) (v : α) : Prop :=
  ∃ e, Spells ts e ∧ e.build? k = some v

/-- Sequences of tokens that each spell an expression, which construct the given arguments. -/
def BuildsArgs (k : Constructors α) (tss : List (List Token)) (args : List (Arg α)) : Prop :=
  ∃ es, List.Forall₂ Spells tss es ∧ buildArgs? k es = some args

section Builds

variable {k : Constructors α} {ts : List Token} {v : α} {tss : List (List Token)} {args : List (Arg α)}

theorem builds_literal {o : Operand} (h : Spells ts (.operand o)) :
    Builds k (Code.construct "literal" ts) (k.literal o) :=
  ⟨_, spells_construct "literal" (.cons h .nil), rfl⟩

theorem builds_ident (name : String) : Builds k (Code.construct "ident" [Code.string name]) (k.ident name) := by
  refine ⟨_, spells_construct "ident" (.cons (spells_string name) .nil), ?_⟩
  show (Code.string name).content?.map k.ident = some (k.ident name)
  rw [writesStrings.content, Option.map_some]

theorem builds_unquote (h : Builds k ts v) : Builds k (Code.construct "unquote" ts) (k.unquote v) := by
  obtain ⟨e, hspells, hbuild⟩ := h
  refine ⟨_, spells_construct "unquote" (.cons hspells .nil), ?_⟩
  show (e.build? k).map k.unquote = some (k.unquote v)
  rw [hbuild, Option.map_some]

theorem builds_splice (h : Builds k ts v) : Builds k (Code.construct "unquote_splice" ts) (k.splice v) := by
  obtain ⟨e, hspells, hbuild⟩ := h
  refine ⟨_, spells_construct "unquote_splice" (.cons hspells .nil), ?_⟩
  show (e.build? k).map k.splice = some (k.splice v)
  rw [hbuild, Option.map_some]

theorem builds_apply (h : Builds k ts v) (hargs : BuildsArgs k tss args) :
    Builds k (Code.construct "apply" (ts ++ Code.comma :: Code.vector tss)) (k.apply v args) := by
  obtain ⟨e, hspells, hbuild⟩ := h
  obtain ⟨es, hitems, hbuildArgs⟩ := hargs
  refine ⟨_, spells_construct "apply" (.cons hspells (.cons (spells_vector hitems) .nil)), ?_⟩
  show ((e.build? k).bind fun head => (buildArgs? k es).map fun args => k.apply head args) = some (k.apply v args)
  rw [hbuild, hbuildArgs]
  rfl

theorem builds_list (hargs : BuildsArgs k tss args) :
    Builds k (Code.construct "list" (Code.vector tss)) (k.list args) := by
  obtain ⟨es, hitems, hbuildArgs⟩ := hargs
  refine ⟨_, spells_construct "list" (.cons (spells_vector hitems) .nil), ?_⟩
  show (buildArgs? k es).map k.list = some (k.list args)
  rw [hbuildArgs, Option.map_some]

theorem buildsArgs_cons (name : Option String) (h : Builds k ts v) (hargs : BuildsArgs k tss args) :
    BuildsArgs k (Code.argument name ts :: tss) (⟨name, v⟩ :: args) := by
  obtain ⟨e, hspells, hbuild⟩ := h
  obtain ⟨es, hitems, hbuildArgs⟩ := hargs
  cases name with
  | none =>
    refine ⟨_, .cons (spells_call _ _ (.cons hspells .nil)) hitems, ?_⟩
    show ((e.build? k).bind fun value => (buildArgs? k es).map fun args => .unnamed value :: args) = _
    rw [hbuild, hbuildArgs]
    rfl
  | some name =>
    refine ⟨_, .cons (spells_call _ _ (.cons (spells_string name) (.cons hspells .nil))) hitems, ?_⟩
    show ((Code.string name).content?.bind fun name => (e.build? k).bind fun value =>
      (buildArgs? k es).map fun args => .named name value :: args) = _
    rw [writesStrings.content, hbuild, hbuildArgs]
    rfl

end Builds

mutual
theorem builds_code (k : Constructors α) : ∀ f : Form, Builds k f.code (f.fold k)
  | .nil => builds_literal fun _ _ => rfl
  | .missing => ⟨_, spells_construct "missing" .nil, rfl⟩
  | .literal text => by
    rw [insertsLiterals.literal]
    exact builds_literal fun _ _ => rfl
  | .negated text => by
    rw [insertsLiterals.negated]
    exact builds_literal fun _ _ => rfl
  | .bool b => builds_literal fun _ _ => by cases b <;> rfl
  | .ident name => by
    rw [insertsLiterals.ident]
    exact builds_ident name
  | .unquote f => builds_unquote (builds_code k f)
  | .splice f => builds_splice (builds_code k f)
  | .apply head args => builds_apply (builds_code k head) (buildsArgs_argCodes k args)
  | .list args => builds_list (buildsArgs_argCodes k args)

theorem buildsArgs_argCodes (k : Constructors α) :
    ∀ args : List (Arg Form), BuildsArgs k (argCodes args) (foldArgs k args)
  | [] => ⟨[], .nil, rfl⟩
  | a :: args => buildsArgs_cons a.name (builds_code k a.value) (buildsArgs_argCodes k args)
end

theorem build?_read?_code (k : Constructors α) (f : Form) : (read? f.code).bind (build? k) = some (f.fold k) := by
  obtain ⟨e, hspells, hbuild⟩ := builds_code k f
  rw [read?_of_spells hspells, Option.bind_some, hbuild]

theorem injective_code : Function.Injective Form.code := by
  intro f g hcode
  have hf := build?_read?_code .forms f
  rw [hcode, build?_read?_code, fold_forms, fold_forms] at hf
  exact (Option.some.inj hf).symm

/-- The code of a form is read to its end as an expression that constructs the host syntax of the form, and no two
forms have the same code. -/
theorem code_denotes : (∀ (value : Bool → String → Constant) (f : Form),
      (read? f.code).bind (build? (.host value)) = some (f.host value)) ∧ Function.Injective Form.code := by
  refine ⟨fun value f => ?_, injective_code⟩
  rw [build?_read?_code, fold_host]

/-! ## Streams -/

theorem stream_path (parts : List String) : Token.stream (Code.path parts) = Code.path parts := by
  induction parts with
  | nil => rfl
  | cons part parts ih => exact congrArg (Code.separator ++ .ident part :: ·) ih

theorem stream_callOf (parts : List String) (ts : List Token) :
    Token.stream (Code.call parts ts) = Code.call parts (Token.stream ts) := by
  rw [Code.call, stream_append, stream_path]
  simp [Code.call, Token.stream, Token.spread]

theorem stream_call (parts : List String) {ts : List Token} (h : Token.stream ts = ts) :
    Token.stream (Code.call parts ts) = Code.call parts ts := by
  rw [stream_callOf, h]

theorem stream_pair {ts us : List Token} (hfirst : Token.stream ts = ts) (hsecond : Token.stream us = us) :
    Token.stream (ts ++ Code.comma :: us) = ts ++ Code.comma :: us := by
  rw [stream_append, hfirst]
  show ts ++ Code.comma :: Token.stream us = _
  rw [hsecond]

theorem stream_commaSeparated {tss : List (List Token)} (h : ∀ ts ∈ tss, Token.stream ts = ts) :
    Token.stream (Code.commaSeparated tss) = Code.commaSeparated tss := by
  induction tss with
  | nil => rfl
  | cons ts tss ih =>
    have hts := h ts List.mem_cons_self
    have hrest := ih fun us hus => h us (List.mem_cons_of_mem ts hus)
    cases tss with
    | nil => exact hts
    | cons us tss => exact stream_pair hts hrest

theorem stream_vector {tss : List (List Token)} (h : ∀ ts ∈ tss, Token.stream ts = ts) :
    Token.stream (Code.vector tss) = Code.vector tss := by
  simp [Code.vector, Token.stream, Token.spread, stream_commaSeparated h]

theorem stream_argument (name : Option String) {ts : List Token} (h : Token.stream ts = ts) :
    Token.stream (Code.argument name ts) = Code.argument name ts := by
  have hstring : ∀ s, Token.stream [Code.string s] = [Code.string s] := by
    intro s
    simp [Token.stream, spread_string]
  cases name with
  | none => exact stream_call _ h
  | some name => exact stream_call _ (stream_pair (hstring name) h)

mutual
/-- Without signs in its literals, the code of a form is a stream as it stands. -/
theorem stream_code : ∀ f : Form, (∀ text ∈ f.literals, IsUnsigned text) → Token.stream f.code = f.code
  | .nil, _ | .missing, _ => rfl
  | .literal text, h => by
    have hunsigned := spreadsLiterals.unsigned text (h text (by simp [Form.literals]))
    exact stream_call _ (by simp [Token.stream, hunsigned])
  | .negated text, h => by
    have hunsigned := spreadsLiterals.unsigned text (h text (by simp [Form.literals]))
    exact stream_call _ (by simp [Token.stream, Token.spread.eq_1, hunsigned])
  | .bool b, _ => by cases b <;> rfl
  | .ident name, _ => stream_call _ (by simp [Token.stream, spread_string])
  | .unquote f, h => stream_call _ (stream_code f h)
  | .splice f, h => stream_call _ (stream_code f h)
  | .apply head args, h => by
    have hhead := stream_code head fun text ht => h text (by simp [Form.literals, ht])
    have hargs := stream_argCodes args fun text ht => h text (by simp [Form.literals, ht])
    exact stream_call _ (stream_pair hhead (stream_vector hargs))
  | .list args, h => stream_call _ (stream_vector (stream_argCodes args h))

theorem stream_argCodes : ∀ args : List (Arg Form), (∀ text ∈ argLiterals args, IsUnsigned text) →
    ∀ ts ∈ argCodes args, Token.stream ts = ts
  | [], _ => nofun
  | a :: args, h => by
    have hvalue := stream_code a.value fun text ht => h text (by simp [argLiterals, ht])
    have hargs := stream_argCodes args fun text ht => h text (by simp [argLiterals, ht])
    exact List.forall_mem_cons.2 ⟨stream_argument a.name hvalue, hargs⟩
end

/-- Without signs in its literals, the stream of the code of a form denotes what the code denotes, and no two such
forms have the same stream. -/
theorem stream_denotes : (∀ (value : Bool → String → Constant) (f : Form), (∀ text ∈ f.literals, IsUnsigned text) →
      (read? (Token.stream f.code)).bind (build? (.host value)) = some (f.host value)) ∧
    Set.InjOn (fun f : Form => Token.stream f.code) {f | ∀ text ∈ f.literals, IsUnsigned text} := by
  constructor
  · intro value f hf
    rw [stream_code f hf, build?_read?_code, fold_host]
  · intro f hf g hg hstream
    simp only [stream_code f hf, stream_code g hg] at hstream
    exact injective_code hstream

/-- A literal with a sign becomes a negation. -/
theorem stream_code_signed (cs : List Char) :
    Token.stream (Form.literal (String.ofList ('-' :: cs))).code = (Form.negated (String.ofList cs)).code := by
  rw [insertsLiterals.literal, insertsLiterals.negated, Code.construct, stream_callOf, Token.stream, Token.stream,
    spreadsLiterals.signed, List.append_nil]
  rfl

end Quotation.Surface
