import Quotation.Proofs.Template.Conversion
import Quotation.Proofs.Tree.Rendering
/-!
# Syntax without markers

The markers of a piece of syntax are its unquotes and splices, and the definitions among
its arguments. A definition anywhere else is an application like any other. What has no
marker is read as one plain node, the one that it spells, and nothing else is
(`ofSyntaxAt_eq_node_iff`). Quoting it with expansion then evaluates nothing, however deep
it is (`collapses_exactly_without_markers`).
-/

namespace Quotation

namespace Syntax

mutual
/-- Whether an argument anywhere is a definition, in operands of markers included. -/
def hasDefinition : Syntax → Bool
  | literal _ => false
  | ident _ => false
  | apply head args => hasDefinition head || anyDefinition args
  | list args => anyDefinition args
  | unquote expr => hasDefinition expr
  | splice expr => hasDefinition expr

def anyDefinition : List (Arg Syntax) → Bool
  | [] => false
  | a :: as => a.isDefinition || hasDefinition a.value || anyDefinition as
end

/-- Neither an unquote or splice nor a definition among arguments occurs. -/
structure IsMarkerFree (x : Syntax) : Prop where
  marker : x.hasMarker = false
  definition : x.hasDefinition = false

/-- The same of arguments, none of which is a definition itself. -/
structure AreMarkerFree (args : List (Arg Syntax)) : Prop where
  marker : anyMarker args = false
  definition : anyDefinition args = false

theorem areMarkerFree_nil : AreMarkerFree [] := ⟨rfl, rfl⟩

theorem areMarkerFree_cons {a : Arg Syntax} {args : List (Arg Syntax)} :
    AreMarkerFree (a :: args) ↔ (a.isDefinition = false ∧ a.value.IsMarkerFree) ∧ AreMarkerFree args := by
  constructor
  · rintro ⟨hmarker, hdefinition⟩
    simp only [anyMarker, anyDefinition, Bool.or_eq_false_iff] at hmarker hdefinition
    exact ⟨⟨hdefinition.1.1, hmarker.1, hdefinition.1.2⟩, hmarker.2, hdefinition.2⟩
  · rintro ⟨⟨ha, hmarker, hdefinition⟩, hmarkers, hdefinitions⟩
    constructor
    · simp [anyMarker, hmarker, hmarkers]
    · simp [anyDefinition, ha, hdefinition, hdefinitions]

theorem isMarkerFree_apply {head : Syntax} {args : List (Arg Syntax)} :
    (apply head args).IsMarkerFree ↔ head.IsMarkerFree ∧ AreMarkerFree args := by
  constructor
  · rintro ⟨hmarker, hdefinition⟩
    simp only [hasMarker, hasDefinition, Bool.or_eq_false_iff] at hmarker hdefinition
    exact ⟨⟨hmarker.1, hdefinition.1⟩, hmarker.2, hdefinition.2⟩
  · rintro ⟨⟨hmarker, hdefinition⟩, hmarkers, hdefinitions⟩
    constructor
    · simp [hasMarker, hmarker, hmarkers]
    · simp [hasDefinition, hdefinition, hdefinitions]

theorem isMarkerFree_list {args : List (Arg Syntax)} : (list args).IsMarkerFree ↔ AreMarkerFree args := by
  constructor
  · rintro ⟨hmarker, hdefinition⟩
    exact ⟨by simpa [hasMarker] using hmarker, by simpa [hasDefinition] using hdefinition⟩
  · rintro ⟨hmarkers, hdefinitions⟩
    exact ⟨by simpa [hasMarker] using hmarkers, by simpa [hasDefinition] using hdefinitions⟩

theorem not_isMarkerFree_unquote (e : Syntax) : ¬ (unquote e).IsMarkerFree := by
  intro h
  simpa [hasMarker] using h.marker

theorem not_isMarkerFree_splice (e : Syntax) : ¬ (splice e).IsMarkerFree := by
  intro h
  simpa [hasMarker] using h.marker

end Syntax

namespace Template

open Syntax

/-! ## Putting plain parts together -/

theorem plainArgs?_cons (p : Part Template) (ps : List (Part Template)) :
    plainArgs? (p :: ps) = p.plain?.bind fun a => (plainArgs? ps).map (a :: ·) := by
  unfold plainArgs?
  rw [List.mapM_cons]
  cases p.plain? with
  | none => rfl
  | some a => cases ps.mapM Part.plain? <;> rfl

/-- A call is a plain node if its head and its arguments are. -/
theorem apply_eq_node_iff {head : Template} {args : List (Part Template)} {n : Node} :
    apply head args = node n ↔ ∃ h as, head = node h ∧ plainArgs? args = some as ∧ n = .call h as := by
  constructor
  · intro h
    rcases apply_eq head args with hcall | ⟨m, as, rfl, has, hnode⟩
    · rw [hcall] at h
      cases h
    · rw [hnode] at h
      cases h
      exact ⟨m, as, rfl, has, rfl⟩
  · rintro ⟨m, as, rfl, has, rfl⟩
    simp [apply, plain?, has]

theorem ofArgs_eq_node_iff {args : List (Part Template)} {n : Node} :
    ofArgs args = node n ↔ ∃ as, plainArgs? args = some as ∧ n = .pairlist as := by
  constructor
  · intro h
    rcases ofArgs_eq args with hlist | ⟨as, has, hnode⟩
    · rw [hlist] at h
      cases h
    · rw [hnode] at h
      cases h
      exact ⟨as, has, rfl⟩
  · rintro ⟨as, has, rfl⟩
    simp [ofArgs, has]

/-! ## Reading syntax as a plain node -/

/-- The syntax is read as a plain node just if it has no marker, and then as the node that
it spells. -/
def Collapses (x : Syntax) : Prop :=
  ∀ path n, ofSyntaxAt path x = .ok (node n) ↔ x.IsMarkerFree ∧ n = x.quote

theorem plain_of_readAs {path : Path} {i : Nat} {a : Arg Syntax} {part : Except Error (Part Template)} {b : Arg Node}
    (hpart : ReadAs path i a part) (ha : Collapses a.value) :
    (∃ p, part = .ok p ∧ p.plain? = some b) ↔
      (a.isDefinition = false ∧ a.value.IsMarkerFree) ∧ b = ⟨a.name, a.value.quote⟩ := by
  cases hpart with
  | splice =>
    refine iff_of_false ?_ fun h => not_isMarkerFree_splice _ h.1.2
    rintro ⟨p, hp, hplain⟩
    cases hp
    cases hplain
  | define =>
    refine iff_of_false ?_ fun h => by cases h.1.1
    rintro ⟨p, hp, hplain⟩
    obtain ⟨t, _, rfl⟩ := map_eq_ok_iff.1 hp
    cases hplain
  | arg hdefinition _ =>
    constructor
    · rintro ⟨p, hp, hplain⟩
      obtain ⟨t, ht, rfl⟩ := map_eq_ok_iff.1 hp
      cases t with
      | node n =>
        cases hplain
        obtain ⟨hfree, rfl⟩ := (ha _ n).1 ht
        exact ⟨⟨hdefinition, hfree⟩, rfl⟩
      | single _ | call _ _ | pairlist _ => cases hplain
    · rintro ⟨⟨_, hfree⟩, rfl⟩
      exact ⟨_, map_eq_ok_iff.2 ⟨_, (ha _ _).2 ⟨hfree, rfl⟩, rfl⟩, rfl⟩

theorem plain_of_partsAt {args : List (Arg Syntax)} (hargs : ∀ a ∈ args, Collapses a.value) {path : Path} {i : Nat}
    {bs : List (Arg Node)} : (∃ parts, partsAt path i args = .ok parts ∧ plainArgs? parts = some bs) ↔
      AreMarkerFree args ∧ bs = quoteArgs args := by
  induction args generalizing i bs with
  | nil =>
    constructor
    · rintro ⟨parts, hparts, hbs⟩
      rw [partsAt_nil_eq_ok hparts] at hbs
      cases hbs
      exact ⟨areMarkerFree_nil, rfl⟩
    · rintro ⟨_, rfl⟩
      exact ⟨[], by rw [partsAt], rfl⟩
  | cons a rest ih =>
    replace ih := @ih fun b hb => hargs b (List.mem_cons_of_mem a hb)
    obtain ⟨part, hpart, hcons⟩ := partsAt_cons path i a rest
    have hfirst {b : Arg Node} := @plain_of_readAs path i a part b hpart (hargs a List.mem_cons_self)
    rw [areMarkerFree_cons, hcons]
    constructor
    · rintro ⟨parts, hparts, hbs⟩
      obtain ⟨p, hp, hparts⟩ := bind_eq_ok_iff.1 hparts
      obtain ⟨ps, hps, hparts⟩ := bind_eq_ok_iff.1 hparts
      cases hparts
      rw [plainArgs?_cons, Option.bind_eq_some_iff] at hbs
      obtain ⟨b, hb, hbs⟩ := hbs
      obtain ⟨cs, hcs, rfl⟩ := Option.map_eq_some_iff.1 hbs
      obtain ⟨ha, rfl⟩ := hfirst.1 ⟨p, hp, hb⟩
      obtain ⟨hrest, rfl⟩ := ih.1 ⟨ps, hps, hcs⟩
      exact ⟨⟨ha, hrest⟩, by rw [quoteArgs]⟩
    · rintro ⟨⟨ha, hrest⟩, rfl⟩
      obtain ⟨p, hp, hb⟩ := hfirst.2 ⟨ha, rfl⟩
      obtain ⟨ps, hps, hcs⟩ := ih.2 ⟨hrest, rfl⟩
      refine ⟨p :: ps, bind_eq_ok_iff.2 ⟨p, hp, bind_eq_ok_iff.2 ⟨ps, hps, rfl⟩⟩, ?_⟩
      rw [plainArgs?_cons, hb, Option.bind_some, hcs, quoteArgs]
      rfl

theorem ofSyntaxAt_eq_node_iff (x : Syntax) : Collapses x := by
  induction x with
  | literal c =>
    intro path n
    rw [ofSyntaxAt, quote]
    constructor
    · intro h
      cases h
      exact ⟨⟨rfl, rfl⟩, rfl⟩
    · rintro ⟨_, rfl⟩
      rfl
  | ident name =>
    intro path n
    rw [ofSyntaxAt, quote]
    constructor
    · intro h
      cases h
      exact ⟨⟨rfl, rfl⟩, rfl⟩
    · rintro ⟨_, rfl⟩
      rfl
  | apply head args ihh iha =>
    intro path n
    rw [ofSyntaxAt, isMarkerFree_apply, quote]
    constructor
    · intro h
      obtain ⟨t, ht, h⟩ := bind_eq_ok_iff.1 h
      obtain ⟨parts, hparts, h⟩ := bind_eq_ok_iff.1 h
      obtain ⟨m, as, rfl, has, rfl⟩ := apply_eq_node_iff.1 (Except.ok.inj h)
      obtain ⟨hhead, rfl⟩ := (ihh _ m).1 ht
      obtain ⟨hargs, rfl⟩ := (plain_of_partsAt iha).1 ⟨parts, hparts, has⟩
      exact ⟨⟨hhead, hargs⟩, rfl⟩
    · rintro ⟨⟨hhead, hargs⟩, rfl⟩
      obtain ⟨parts, hparts, has⟩ := (plain_of_partsAt iha).2 ⟨hargs, rfl⟩
      have ht := (ihh (path ++ [.head]) _).2 ⟨hhead, rfl⟩
      refine bind_eq_ok_iff.2 ⟨_, ht, bind_eq_ok_iff.2 ⟨parts, hparts, ?_⟩⟩
      exact congrArg Except.ok (apply_eq_node_iff.2 ⟨_, _, rfl, has, rfl⟩)
  | list args iha =>
    intro path n
    rw [ofSyntaxAt, isMarkerFree_list, quote]
    constructor
    · intro h
      obtain ⟨parts, hparts, h⟩ := bind_eq_ok_iff.1 h
      obtain ⟨as, has, rfl⟩ := ofArgs_eq_node_iff.1 (Except.ok.inj h)
      obtain ⟨hargs, rfl⟩ := (plain_of_partsAt iha).1 ⟨parts, hparts, has⟩
      exact ⟨hargs, rfl⟩
    · rintro ⟨hargs, rfl⟩
      obtain ⟨parts, hparts, has⟩ := (plain_of_partsAt iha).2 ⟨hargs, rfl⟩
      refine bind_eq_ok_iff.2 ⟨parts, hparts, ?_⟩
      exact congrArg Except.ok (ofArgs_eq_node_iff.2 ⟨_, has, rfl⟩)
  | unquote e _ =>
    intro path n
    rw [ofSyntaxAt]
    refine iff_of_false (fun h => ?_) fun h => not_isMarkerFree_unquote e h.1
    cases h
  | splice e _ =>
    intro path n
    rw [ofSyntaxAt]
    refine iff_of_false (fun h => ?_) fun h => not_isMarkerFree_splice e h.1
    cases h

end Template

/-! ## Quoting -/

/-- A plain node at the root is expanded without a look at anything. -/
theorem expand_node (ev : Evaluator) (env : FrameId) (options : ExpandOptions) (n : Node) :
    expand ev env options (.node n) = pure n := by
  simp [expand, Expand.node, Expand.checkDepth]

theorem quoteExpanding_of_isMarkerFree {x : Syntax} (h : x.IsMarkerFree) (ev : Evaluator) (env : FrameId) :
    quoteExpanding ev env x = pure x.quote := by
  have hread : Template.ofSyntax x = .ok (.node x.quote) := (Template.ofSyntaxAt_eq_node_iff x [] _).2 ⟨h, rfl⟩
  rw [quoteExpanding, hread]
  exact expand_node ev env {} x.quote

/-- Syntax is read as a plain node exactly if there is no unquote or splice in it and no
argument anywhere is an unnamed definition; the node is the one that it spells. Quoting
such syntax with expansion gives that node in every environment, at every depth, and does
nothing else. -/
theorem collapses_exactly_without_markers (x : Syntax) :
    (∀ n, Template.ofSyntax x = .ok (.node n) ↔ (x.hasMarker = false ∧ x.hasDefinition = false) ∧ n = x.quote) ∧
    (x.hasMarker = false → x.hasDefinition = false → ∀ ev env, quoteExpanding ev env x = pure x.quote) := by
  refine ⟨fun n => ?_, fun hmarker hdefinition => quoteExpanding_of_isMarkerFree ⟨hmarker, hdefinition⟩⟩
  have h := Template.ofSyntaxAt_eq_node_iff x [] n
  constructor
  · intro hread
    obtain ⟨hfree, hn⟩ := h.1 hread
    exact ⟨⟨hfree.marker, hfree.definition⟩, hn⟩
  · rintro ⟨⟨hmarker, hdefinition⟩, hn⟩
    exact h.2 ⟨⟨hmarker, hdefinition⟩, hn⟩

/-- A definition at the root, at a head or under a name is no marker. -/
example : (Template.ofSyntax (.apply (.define (.ident "a") (.ident "b"))
    [.named "x" (.define (.ident "c") (.ident "d"))])) = .ok (.node (.call
      (.call (.symbol ":=") [.unnamed (.symbol "a"), .unnamed (.symbol "b")])
      [.named "x" (.call (.symbol ":=") [.unnamed (.symbol "c"), .unnamed (.symbol "d")])])) := by
  cbv

end Quotation
