import Quotation.Proofs.Run.Failing
import Quotation.Proofs.Run.Outcome
import Quotation.Template.Expansion
/-!
# Reading syntax as a template

The arguments of a call or list become parts one by one (`PartOf`), in one of three
ways: an unnamed splice, an unnamed definition, or anything else. A call or list none
of whose parts has a hole is kept as a plain node; expanding it gives the same as
expanding the parts, except that the levels below are not counted.
-/

namespace Quotation

/-- Whether an argument is `lhs := rhs`, unnamed, with both sides unnamed. -/
def Arg.isDefinition : Arg Syntax → Bool
  | ⟨none, .apply (.ident op) [⟨none, _⟩, ⟨none, _⟩]⟩ => op == defineName
  | _ => false

namespace Template

/-! ## Arguments -/

/-- How the argument of an index becomes a part. -/
inductive PartOf (path : Path) (i : Nat) : Arg Syntax → Part Template → Prop
  | splice {e} : PartOf path i ⟨none, .splice e⟩ (.splice e.quote)
  | define {lhs rhs t} : ofSyntaxAt (path ++ [.arg i]) rhs = .ok t →
      PartOf path i ⟨none, .define lhs rhs⟩ (.define (nameSource lhs) t)
  | arg {a t} : a.isDefinition = false → ofSyntaxAt (path ++ [.arg i]) a.value = .ok t →
      PartOf path i a (.arg a.name t)

/-- How the argument of an index is read, which may fail. -/
inductive ReadAs (path : Path) (i : Nat) : Arg Syntax → Except Error (Part Template) → Prop
  | splice {e} : ReadAs path i ⟨none, .splice e⟩ (.ok (.splice e.quote))
  | define {lhs rhs} : ReadAs path i ⟨none, .define lhs rhs⟩
      ((ofSyntaxAt (path ++ [.arg i]) rhs).map (.define (nameSource lhs)))
  | arg {a} : a.isDefinition = false → (∀ e, a ≠ ⟨none, .splice e⟩) →
      ReadAs path i a ((ofSyntaxAt (path ++ [.arg i]) a.value).map (.arg a.name))

theorem partsAt_cons (path : Path) (i : Nat) (a : Arg Syntax) (rest : List (Arg Syntax)) :
    ∃ part, ReadAs path i a part ∧
      partsAt path i (a :: rest) = (do return (← part) :: (← partsAt path (i + 1) rest)) := by
  conv =>
    enter [1, part, 2, 1]
    unfold partsAt
  dsimp only
  split
  · cases ‹_ :: _ = []›
  · cases ‹_ :: _ = _ :: _›
    exact ⟨_, .splice, rfl⟩
  · cases ‹_ :: _ = _ :: _›
    rename_i op lhs rhs
    -- The shape is that of a definition, and the operator decides.
    by_cases hop : op = defineName
    · subst hop
      rw [if_pos rfl]
      refine ⟨_, .define, ?_⟩
      cases ofSyntaxAt (path ++ [.arg i]) rhs <;> rfl
    · rw [if_neg hop]
      refine ⟨_, .arg (by simp [Arg.isDefinition, hop]) nofun, ?_⟩
      dsimp only
      cases ofSyntaxAt (path ++ [.arg i]) (.apply (.ident op) [⟨none, lhs⟩, ⟨none, rhs⟩]) <;> rfl
  · cases ‹_ :: _ = _ :: _›
    rename_i name value hsplice hdefine
    refine ⟨_, .arg ?_ ?_, ?_⟩
    · unfold Arg.isDefinition
      split
      · cases ‹_ = Arg.mk _ _›
        exact (hdefine _ _ _ rfl rfl).elim
      · rfl
    · intro e he
      cases he
      exact hsplice _ rfl rfl
    · cases ofSyntaxAt (path ++ [.arg i]) value <;> rfl

theorem map_eq_ok_iff {α β : Type} {x : Except Error α} {f : α → β} {b : β} :
    x.map f = .ok b ↔ ∃ a, x = .ok a ∧ f a = b := by
  cases x <;> simp [Except.map]

theorem partsAt_cons_eq_ok {path : Path} {i : Nat} {a : Arg Syntax} {rest : List (Arg Syntax)}
    {parts : List (Part Template)} (h : partsAt path i (a :: rest) = .ok parts) :
    ∃ p ps, PartOf path i a p ∧ partsAt path (i + 1) rest = .ok ps ∧ parts = p :: ps := by
  obtain ⟨part, hpart, hcons⟩ := partsAt_cons path i a rest
  rw [hcons] at h
  obtain ⟨p, hp, h⟩ := bind_eq_ok_iff.1 h
  obtain ⟨ps, hps, h⟩ := bind_eq_ok_iff.1 h
  cases h
  refine ⟨p, ps, ?_, hps, rfl⟩
  cases hpart with
  | splice =>
    cases hp
    exact .splice
  | define =>
    obtain ⟨t, ht, rfl⟩ := map_eq_ok_iff.1 hp
    exact .define ht
  | arg hdefinition _ =>
    obtain ⟨t, ht, rfl⟩ := map_eq_ok_iff.1 hp
    exact .arg hdefinition ht

theorem partsAt_nil_eq_ok {path : Path} {i : Nat} {parts : List (Part Template)}
    (h : partsAt path i [] = .ok parts) : parts = [] := by
  unfold partsAt at h
  cases h
  rfl

/-! ## Plain calls and lists -/

theorem plainArgs?_cons_eq_some {p : Part Template} {ps : List (Part Template)} {as : List (Arg Node)}
    (h : plainArgs? (p :: ps) = some as) :
    ∃ name n bs, p = .arg name (.node n) ∧ plainArgs? ps = some bs ∧ as = ⟨name, n⟩ :: bs := by
  unfold plainArgs? at h
  simp only [List.mapM_cons, Option.pure_def, Option.bind_eq_bind, Option.bind_eq_some_iff, Option.some.injEq] at h
  obtain ⟨a, ha, bs, hbs, rfl⟩ := h
  unfold Part.plain? at ha
  split at ha
  · cases ha
    exact ⟨_, _, bs, rfl, hbs, rfl⟩
  · cases ha

theorem apply_eq (head : Template) (args : List (Part Template)) :
    apply head args = call head args ∨
      ∃ h as, head = node h ∧ plainArgs? args = some as ∧ apply head args = node (.call h as) := by
  unfold apply
  cases head with
  | node h =>
    cases has : plainArgs? args with
    | none => exact .inl rfl
    | some as => exact .inr ⟨h, as, rfl, rfl, rfl⟩
  | _ => exact .inl rfl

theorem ofArgs_eq (args : List (Part Template)) :
    ofArgs args = pairlist args ∨ ∃ as, plainArgs? args = some as ∧ ofArgs args = node (.pairlist as) := by
  unfold ofArgs
  cases has : plainArgs? args with
  | none => exact .inl rfl
  | some as => exact .inr ⟨as, rfl, rfl⟩

end Template

namespace Expand

open Run

variable {ev : Evaluator} {env : FrameId} {options : ExpandOptions} {path : Path} {depth : Nat} {s s' : State}

theorem ends_checkDepth {r : Except Error Unit} : (checkDepth options path depth).Ends s r s' ↔
    r = (if options.maxDepth < depth then .error (.atPath .recursionLimit path) else .ok ()) ∧ s' = s := by
  unfold checkDepth
  split
  · exact ends_failAt
  · exact ends_pure

theorem ends_node_ok {n m : Node} : (node ev env options path depth (.node n)).Ends s (.ok m) s' ↔
    ¬ options.maxDepth < depth ∧ m = n ∧ s' = s := by
  simp only [node, ends_bind_ok, ends_checkDepth, ends_pure]
  by_cases hd : options.maxDepth < depth <;> simp [hd]

theorem ends_single_ok {source n : Node} :
    (node ev env options path depth (.single source)).Ends s (.ok n) s' ↔
    ¬ options.maxDepth < depth ∧ (unquote ev env source path).Ends s (.ok n) s' := by
  simp only [node, ends_bind_ok, ends_checkDepth]
  by_cases hd : options.maxDepth < depth <;> simp [hd]

/-- A head with holes is checked once it has expanded. -/
theorem ends_call_ok {head : Template} {args : List (Part Template)} {n : Node} :
    (node ev env options path depth (.call head args)).Ends s (.ok n) s' ↔
    ¬ options.maxDepth < depth ∧
      ∃ hd t as, (node ev env options (path ++ [.head]) (depth + 1) head).Ends s (.ok hd) t ∧
        (head.isPlain = false → hd.isHead = true) ∧
        (argList ev env options path (depth + 1) 0 args).Ends t (.ok as) s' ∧ n = .call hd as := by
  simp only [node, ends_bind_ok, ends_checkDepth]
  cases hp : head.isPlain with
  | true =>
    simp only [Bool.not_true, Bool.false_eq_true, ↓reduceIte, ends_bind_ok, ends_pure]
    by_cases hd : options.maxDepth < depth <;> simp [hd]
  | false =>
    simp only [Bool.not_false, ↓reduceIte, ends_bind_ok, ends_pure, ends_ofExcept, eq_comm (a := Except.ok ()),
      Node.requireHead_eq_ok_iff, and_assoc, exists_and_left, exists_eq_left]
    by_cases hd : options.maxDepth < depth <;> simp [hd]

theorem ends_pairlist_ok {args : List (Part Template)} {n : Node}
    (h : (node ev env options path depth (.pairlist args)).Ends s (.ok n) s') :
    ∃ as, (argList ev env options path (depth + 1) 0 args).Ends s (.ok as) s' ∧ n = .pairlist as := by
  simp only [node, ends_bind_ok, ends_checkDepth, ends_pure] at h
  obtain ⟨_, t, ⟨-, rfl⟩, as, _, has, hn, rfl⟩ := h
  exact ⟨as, has, by simpa using hn⟩

/-- Arguments without holes are their own expansion, where their level is allowed. -/
theorem ends_argList_plain {parts : List (Part Template)} {as : List (Arg Node)} {i : Nat}
    (h : Template.plainArgs? parts = some as) (hdepth : depth ≤ options.maxDepth) :
    (argList ev env options path depth i parts).Ends s (.ok as) s := by
  induction parts generalizing as i with
  | nil =>
    cases h
    simp [argList]
  | cons p ps ih =>
    obtain ⟨name, n, bs, rfl, hbs, rfl⟩ := Template.plainArgs?_cons_eq_some h
    simp only [argList, ends_bind_ok, ends_node_ok, ends_pure]
    exact ⟨n, s, ⟨by omega, rfl, rfl⟩, bs, s, ih hbs, rfl, rfl⟩

/-- A call that is put together expands like its head and then its arguments. Where
the call is plain the levels below it are not counted, hence the other options. -/
theorem ends_apply_ok {head : Template} {args : List (Part Template)} {n : Node}
    (h : (node ev env options path depth (.apply head args)).Ends s (.ok n) s') :
    ∃ options' : ExpandOptions, options'.spliceNull = options.spliceNull ∧
      ∃ hd t as, (node ev env options' (path ++ [.head]) (depth + 1) head).Ends s (.ok hd) t ∧
        (argList ev env options' path (depth + 1) 0 args).Ends t (.ok as) s' ∧ n = .call hd as := by
  rcases Template.apply_eq head args with happly | ⟨hd, as, rfl, has, happly⟩
  · rw [happly] at h
    obtain ⟨-, hd, t, as, hhd, -, has, rfl⟩ := ends_call_ok.1 h
    exact ⟨options, rfl, hd, t, as, hhd, has, rfl⟩
  · rw [happly] at h
    obtain ⟨-, rfl, rfl⟩ := ends_node_ok.1 h
    -- The plain node was put in place without a look at its levels; one more level is enough for them.
    refine ⟨{ options with maxDepth := depth + 1 }, rfl, hd, s', as, ?_, ?_, rfl⟩
    · exact ends_node_ok.2 ⟨by simp, rfl, rfl⟩
    · exact ends_argList_plain has (by simp)

theorem ends_ofArgs_ok {args : List (Part Template)} {n : Node}
    (h : (node ev env options path depth (.ofArgs args)).Ends s (.ok n) s') :
    ∃ options' : ExpandOptions, options'.spliceNull = options.spliceNull ∧
      ∃ as, (argList ev env options' path (depth + 1) 0 args).Ends s (.ok as) s' ∧ n = .pairlist as := by
  rcases Template.ofArgs_eq args with hofArgs | ⟨as, has, hofArgs⟩
  · rw [hofArgs] at h
    exact ⟨options, rfl, ends_pairlist_ok h⟩
  · rw [hofArgs] at h
    obtain ⟨-, rfl, rfl⟩ := ends_node_ok.1 h
    exact ⟨{ options with maxDepth := depth + 1 }, rfl, as, ends_argList_plain has (by simp), rfl⟩

end Expand

end Quotation
