import Quotation.Eval.Special
import Quotation.Proofs.Template.Joining
import Quotation.Proofs.Tree.Rendering
/-!
# Lists of expressions

`exprs` reads and expands each of its arguments as a list of one. To quote the list of all the
arguments is to read them all first and then to expand them. Without a tail among the arguments
that is the same (`exprs_quotes_list`): what is read does not depend on where it stands
(`readsAnywhere`), and neither does what it expands to.
-/

namespace Quotation

namespace Template

/-! ## Reading arguments -/

theorem ReadAs.eq_ok {path : Path} {i : Nat} {a : Arg Syntax} {part : Except Error (Part Template)} {p : Part Template}
    (h : ReadAs path i a part) (hp : PartOf path i a p) : part = .ok p := by
  cases hp with
  | splice =>
    cases h with
    | splice => rfl
    | arg _ hsplice => exact absurd rfl (hsplice _)
  | define ht =>
    cases h with
    | define => rw [ht]; rfl
    | arg hdefinition _ => cases hdefinition
  | arg hdefinition ht =>
    cases h with
    | splice =>
      rw [ofSyntaxAt] at ht
      cases ht
    | define => cases hdefinition
    | arg _ _ => rw [ht]; rfl

theorem partsAt_cons_of_partOf {path : Path} {i : Nat} {a : Arg Syntax} {rest : List (Arg Syntax)} {p : Part Template}
    {ps : List (Part Template)} (hp : PartOf path i a p) (hps : partsAt path (i + 1) rest = .ok ps) :
    partsAt path i (a :: rest) = .ok (p :: ps) := by
  obtain ⟨part, hpart, hcons⟩ := partsAt_cons path i a rest
  rw [hcons, hpart.eq_ok hp, hps]
  rfl

/-! ## Reading elsewhere -/

/-- What the syntax is read as at one place, it is read as at any other place. -/
def ReadsAnywhere (x : Syntax) : Prop :=
  ∀ path path' t, ofSyntaxAt path x = .ok t → ofSyntaxAt path' x = .ok t

theorem PartOf.elsewhere {path : Path} {i : Nat} {a : Arg Syntax} {p : Part Template} (h : PartOf path i a p)
    (ha : ReadsAnywhere a.value) (hdefine : ∀ lhs rhs, a.value = .define lhs rhs → ReadsAnywhere rhs)
    (path' : Path) (i' : Nat) : PartOf path' i' a p := by
  cases h with
  | splice => exact .splice
  | define ht => exact .define (hdefine _ _ rfl _ _ _ ht)
  | arg hdefinition ht => exact .arg hdefinition (ha _ _ _ ht)

theorem partsAt_elsewhere {args : List (Arg Syntax)} (hargs : ∀ a ∈ args, ReadsAnywhere a.value)
    (hdefine : ∀ a ∈ args, ∀ lhs rhs, a.value = .define lhs rhs → ReadsAnywhere rhs)
    {path : Path} {i : Nat} {parts : List (Part Template)} (h : partsAt path i args = .ok parts) (path' : Path)
    (i' : Nat) : partsAt path' i' args = .ok parts := by
  induction args generalizing i parts i' with
  | nil =>
    rw [partsAt_nil_eq_ok h, partsAt]
  | cons a rest ih =>
    obtain ⟨p, ps, hp, hps, rfl⟩ := partsAt_cons_eq_ok h
    have hfirst := hp.elsewhere (hargs a List.mem_cons_self) (hdefine a List.mem_cons_self) path' i'
    exact partsAt_cons_of_partOf hfirst <| ih (fun b hb => hargs b (List.mem_cons_of_mem a hb))
      (fun b hb => hdefine b (List.mem_cons_of_mem a hb)) hps (i' + 1)

theorem readsAnywhere (x : Syntax) : ReadsAnywhere x := by
  induction x using Syntax.inductionOnDefinitions with
  | literal c | ident name | unquote e _ =>
    intro path path' t h
    rw [ofSyntaxAt] at h ⊢
    exact h
  | splice e _ =>
    intro path path' t h
    rw [ofSyntaxAt] at h
    cases h
  | apply head args ihh iha ihd =>
    intro path path' t h
    rw [ofSyntaxAt] at h ⊢
    obtain ⟨hd, hhead, h⟩ := bind_eq_ok_iff.1 h
    obtain ⟨parts, hparts, h⟩ := bind_eq_ok_iff.1 h
    exact bind_eq_ok_iff.2 ⟨hd, ihh _ _ _ hhead, bind_eq_ok_iff.2 ⟨parts, partsAt_elsewhere iha ihd hparts _ _, h⟩⟩
  | list args iha ihd =>
    intro path path' t h
    rw [ofSyntaxAt] at h ⊢
    obtain ⟨parts, hparts, h⟩ := bind_eq_ok_iff.1 h
    exact bind_eq_ok_iff.2 ⟨parts, partsAt_elsewhere iha ihd hparts _ _, h⟩

end Template

open Run

variable {ev : Evaluator} {env : FrameId}

/-! ## Lists are read and then expanded -/

/-- A list that is quoted is read, and then its entries are expanded. -/
theorem quoteExpanding_list (args : List (Arg Syntax)) : quoteExpanding ev env (.list args) = (do
    let parts ← Run.ofExcept (Template.partsAt [] 0 args)
    return .pairlist (← Expand.argList ev env {} [] 1 0 parts)) := by
  rw [quoteExpanding, Template.ofSyntax, Template.ofSyntaxAt]
  cases Template.partsAt [] 0 args with
  | error e => rfl
  | ok parts => exact node_ofArgs (Nat.succ_pos _) parts

theorem ends_quoteExpanding_list_ok {args : List (Arg Syntax)} {n : Node} {s s' : State} :
    (quoteExpanding ev env (.list args)).Ends s (.ok n) s' ↔ ∃ parts as, Template.partsAt [] 0 args = .ok parts ∧
      (Expand.argList ev env {} [] 1 0 parts).Ends s (.ok as) s' ∧ n = .pairlist as := by
  rw [quoteExpanding_list, ends_ofExcept_bind]
  cases Template.partsAt [] 0 args with
  | error e => simp
  | ok parts => simp [ends_bind_ok, -bind_pure_comp]

theorem exprsOf_eq {a : Arg Node} (ha : a.isTail = false) : Special.exprsOf ev env a = (do
    let parts ← Run.ofExcept (Template.partsAt [] 0 [⟨a.name, a.value.render⟩])
    Expand.argList ev env {} [] 1 0 parts) := by
  rw [Special.exprsOf, if_neg (by simp [ha]), quoteExpanding_list]
  simp

theorem exprsList_cons {a : Arg Node} (ha : a.isTail = false) {p : Part Template}
    (hp : Template.PartOf [] 0 ⟨a.name, a.value.render⟩ p) (as : List (Arg Node)) :
    Special.exprsList ev env (a :: as) = (do
      let xs ← Expand.argList ev env {} [] 1 0 [p]
      let ys ← Special.exprsList ev env as
      return xs ++ ys) := by
  rw [Special.exprsList, exprsOf_eq ha, Template.partsAt_cons_of_partOf hp (by rw [Template.partsAt])]
  rfl

/-! ## The arguments one by one -/

section
variable {R : Event → Event → Prop} {E : Error → Error → Prop} (hR : ∀ k e e', Event.Moved k e e' → R e e')
  (hE : ∀ k e, E e (Error.moved k e)) (hev : ∀ x env, Alike R Eq Eq (ev x env) (ev x env))
include hR hE hev

/-- Arguments that can be read together are expanded one by one as they are together, each at the
place of a first entry instead of its own. -/
theorem alike_exprsList {args : List (Arg Node)} (hargs : ∀ a ∈ args, a.isTail = false) {i : Nat}
    {parts : List (Part Template)} (hparts : Template.partsAt [] i (renderedArgs args) = .ok parts) :
    Alike R E Eq (Special.exprsList ev env args) (Expand.argList ev env {} [] 1 i parts) := by
  induction args generalizing i parts with
  | nil =>
    rw [Template.partsAt_nil_eq_ok hparts, Special.exprsList, Expand.argList]
    exact alike_pure rfl
  | cons a as ih =>
    obtain ⟨p, ps, hp, hps, rfl⟩ := Template.partsAt_cons_eq_ok hparts
    -- alone the argument is read at index 0, and there expanded as at its own index
    have hfirst := hp.elsewhere (Template.readsAnywhere _) (fun _ rhs _ => Template.readsAnywhere rhs) [] 0
    have hjoin : Expand.argList ev env {} [] 1 i (p :: ps) = (do
        let xs ← Expand.argList ev env {} [] 1 i [p]
        let ys ← Expand.argList ev env {} [] 1 (i + 1) ps
        return xs ++ ys) := by rw [Nat.add_comm i 1, ← List.singleton_append, argList_append]; rfl
    rw [exprsList_cons (hargs a List.mem_cons_self) hfirst, hjoin]
    refine (alike_argList (hR i) (hE i) hev (movesTo_root i 0) 1 [p]).bind_same fun _ => ?_
    exact (ih (fun b hb => hargs b (List.mem_cons_of_mem a hb)) hps).bind_same fun _ => alike_pure rfl

end

/-- What is expanded one by one has been read, and could have been read together. -/
theorem exists_partsAt_of_ends_exprsList {args : List (Arg Node)} (hargs : ∀ a ∈ args, a.isTail = false) {s s' : State}
    {es : List (Arg Node)} (h : (Special.exprsList ev env args).Ends s (.ok es) s') (i : Nat) :
    ∃ parts, Template.partsAt [] i (renderedArgs args) = .ok parts := by
  induction args generalizing s s' es i with
  | nil => exact ⟨[], by rw [renderedArgs, List.map_nil, Template.partsAt]⟩
  | cons a as ih =>
    rw [Special.exprsList, exprsOf_eq (hargs a List.mem_cons_self)] at h
    obtain ⟨xs, t, ha, h⟩ := ends_bind_ok.1 h
    obtain ⟨ys, u, has, _⟩ := ends_bind_ok.1 h
    -- of a list of one nothing but its first part is asked
    obtain ⟨parts, _, hread, _⟩ := ends_bind_ok.1 ha
    obtain ⟨p, _, hp, _, _⟩ := Template.partsAt_cons_eq_ok (ends_ofExcept.1 hread).1.symm
    have hfirst := hp.elsewhere (Template.readsAnywhere _) (fun _ rhs _ => Template.readsAnywhere rhs) [] i
    obtain ⟨ps, hps⟩ := ih (fun b hb => hargs b (List.mem_cons_of_mem a hb)) has (i + 1)
    exact ⟨p :: ps, Template.partsAt_cons_of_partOf hfirst hps⟩

/-! ## The list that is returned -/

theorem Value.toNode?_ofNode (n : Node) : (Value.ofNode n).toNode? = some n := by
  cases n <;> rfl

theorem ends_exprs_ok {args : List (Arg Node)} {v : Value} {s s' : State} :
    (Special.exprs ev env args).Ends s (.ok v) s' ↔
      ∃ es, (Special.exprsList ev env args).Ends s (.ok es) s' ∧ v = .ofArgs es := by
  simp [Special.exprs, ends_bind_ok, -bind_pure_comp]

/-- `exprs` agrees with the list of its arguments that is quoted as one. Without an unnamed `...`
among them it succeeds exactly if that does, from every state. It returns a list then, with the
names of the arguments that quoting gives, and with their values as values, in the same order. The
states at the end are the same, but for the places under which markers have been reported. -/
theorem exprs_quotes_list (depth : Nat) (env : FrameId) (head : Node) (args : List (Arg Node))
    (hargs : ∀ a ∈ args, a.isTail = false) (s : State) :
    ((∃ v t, (SpecialOp.exprs.apply (eval depth) env head args).Ends s (.ok v) t) ↔
      ∃ n t', (quoteExpanding (eval depth) env (.list (renderedArgs args))).Ends s (.ok n) t') ∧
    ∀ v t n t', (SpecialOp.exprs.apply (eval depth) env head args).Ends s (.ok v) t →
      (quoteExpanding (eval depth) env (.list (renderedArgs args))).Ends s (.ok n) t' →
      ∃ entries as, v = .list entries ∧ n = .pairlist as ∧ entries.map (·.name) = as.map (·.name) ∧
        entries.map (·.value.toNode?) = as.map (some ·.value) ∧
        t.LogsAlike (fun e e' => ∃ k, Event.Moved k e e') t' := by
  have halike : ∀ parts, Template.partsAt [] 0 (renderedArgs args) = .ok parts →
      EndsAlike (fun e e' => ∃ k, Event.Moved k e e') (fun _ _ => True) Eq
        ((Special.exprsList (eval depth) env args).run.run s)
        ((Expand.argList (eval depth) env {} [] 1 0 parts).run.run s) :=
    fun parts hparts =>
      alike_exprsList (fun k _ _ he => ⟨k, he⟩) (fun _ _ => trivial) (alike_eval (fun e => ⟨0, .same e⟩) depth) hargs
        hparts s s (logsAlike_refl (fun e => ⟨0, .same e⟩) s)
  constructor
  · constructor
    · rintro ⟨v, t, hv⟩
      obtain ⟨es, hes, _⟩ := ends_exprs_ok.1 hv
      obtain ⟨parts, hparts⟩ := exists_partsAt_of_ends_exprsList hargs hes 0
      obtain ⟨as, t', has⟩ := (halike parts hparts).exists_ends_ok_iff.1 ⟨es, t, hes⟩
      exact ⟨_, t', ends_quoteExpanding_list_ok.2 ⟨parts, as, hparts, has, rfl⟩⟩
    · rintro ⟨n, t', hn⟩
      obtain ⟨parts, as, hparts, has, _⟩ := ends_quoteExpanding_list_ok.1 hn
      obtain ⟨es, t, hes⟩ := (halike parts hparts).exists_ends_ok_iff.2 ⟨as, t', has⟩
      exact ⟨_, t, ends_exprs_ok.2 ⟨es, hes, rfl⟩⟩
  · intro v t n t' hv hn
    obtain ⟨es, hes, rfl⟩ := ends_exprs_ok.1 hv
    obtain ⟨parts, as, hparts, has, rfl⟩ := ends_quoteExpanding_list_ok.1 hn
    obtain ⟨_, u, has', rfl, hlogs⟩ := (halike parts hparts).ends_ok hes
    obtain ⟨⟨⟩, rfl⟩ := has.unique has'
    refine ⟨_, es, rfl, rfl, ?_, ?_, hlogs⟩
    · simp [Arg.map]
    · simp [Arg.map, Value.toNode?_ofNode]

/-- `exprs(!!!v, "n" := !!x)` with a list of one and two is that of three expressions, the last one
with the name `n`. -/
theorem exprs_quotes_list_splice :
    let one : Node := .const (.number (.int 1))
    let x : Node := .symbol "x"
    let args : List (Arg Node) := [.unnamed (.call (.symbol spliceName) [.unnamed (.symbol "v")]),
      .unnamed (.call (.symbol defineName) [.unnamed (.const (.string "n")),
        .unnamed (.call (.symbol unquoteName) [.unnamed x])])]
    ∃ s t t', (SpecialOp.exprs.apply (eval 1) 0 (.symbol "exprs") args).Ends s
        (.ok (.list [⟨some "a", .ofNode one⟩, .unnamed (.lang x), .named "n" (.ofNode one)])) t ∧
      (quoteExpanding (eval 1) 0 (.list (renderedArgs args))).Ends s
        (.ok (.pairlist [⟨some "a", one⟩, .unnamed x, .named "n" one])) t' ∧ t'.store = t.store := by
  intro one x args
  let s := State.ofBindings
    [("x", .value (.ofNode one)), ("v", .value (.list [⟨some "a", .ofNode one⟩, .unnamed (.lang x)]))]
  have hentries : (SpecialOp.exprs.apply (eval 1) 0 (.symbol "exprs") args).Ends s
      (.ok (.list [⟨some "a", .ofNode one⟩, .unnamed (.lang x), .named "n" (.ofNode one)])) _ := rfl
  have hquote : (quoteExpanding (eval 1) 0 (.list (renderedArgs args))).Ends s
      (.ok (.pairlist [⟨some "a", one⟩, .unnamed x, .named "n" one])) _ := rfl
  have hargs : ∀ a ∈ args, a.isTail = false := by decide
  obtain ⟨_, _, _, _, _, _, hlogs⟩ := (exprs_quotes_list 1 0 (.symbol "exprs") args hargs s).2 _ _ _ _ hentries hquote
  exact ⟨s, _, _, hentries, hquote, hlogs.store⟩

end Quotation
