import Quotation.Proofs.Template.Conversion
import Quotation.Proofs.Template.Place
import Quotation.Proofs.Tree.Rendering
/-!
# Misplaced splices

`Holds` tells which pieces of syntax are read as templates, under which paths and in which
roles. Operands of markers and the left sides of definitions are not among them. A splice
has its place only as an unnamed argument; syntax with a splice in another role is not read
(`rejects_first_misplaced_splice`), and the failure is at the first one in reading order.

`Verdict` says as much of one reading, of a head, an argument or a whole. Readings one
after the other have one verdict (`Verdict.bind`), since all places in the first are left
of all places in the second.
-/

namespace Quotation

/-- What a piece of syntax is to the syntax around it. -/
inductive Role where
  | root
  | head
  | argument (name : Option String)
  /-- the right side of a definition that is an unnamed argument -/
  | definitionValue
deriving DecidableEq

namespace Syntax

def args : Syntax → List (Arg Syntax)
  | apply _ args => args
  | list args => args
  | _ => []

/-- Syntax in the first role holds other syntax, in the second role, at a place where a
template is read. The right side of a definition is in the place of the argument. -/
inductive Holds : Role → Syntax → Path → Role → Syntax → Prop
  | here {r x} : Holds r x [] r x
  | head {r head args p r' y} : Holds .head head p r' y → Holds r (apply head args) (.head :: p) r' y
  | argument {r x i a p r' y} : x.args[i]? = some a → a.isDefinition = false →
      Holds (.argument a.name) a.value p r' y → Holds r x (.arg i :: p) r' y
  | definitionValue {r x i lhs rhs p r' y} : x.args[i]? = some ⟨none, .define lhs rhs⟩ →
      Holds .definitionValue rhs p r' y → Holds r x (.arg i :: p) r' y

/-- At the place there is a splice that is not an unnamed argument. -/
def Misplaced (r : Role) (x : Syntax) (p : Path) : Prop :=
  ∃ r' e, Holds r x p r' (.splice e) ∧ r' ≠ .argument none

/-! ## Misplaced splices of an argument -/

/-- At the place, counted from the argument, there is a splice that is misplaced in what is
read there. -/
inductive MisplacedUnder : Arg Syntax → Path → Prop
  | argument {a p} : a.isDefinition = false → Misplaced (.argument a.name) a.value p → MisplacedUnder a p
  | definitionValue {lhs rhs p} : Misplaced .definitionValue rhs p → MisplacedUnder ⟨none, .define lhs rhs⟩ p

/-- The same of one of the arguments, the first of which has the given index. -/
def MisplacedAmong (i : Nat) (args : List (Arg Syntax)) (p : Path) : Prop :=
  ∃ k a q, args[k]? = some a ∧ p = .arg (i + k) :: q ∧ MisplacedUnder a q

theorem not_misplacedAmong_nil (i : Nat) (p : Path) : ¬ MisplacedAmong i [] p := by
  rintro ⟨k, a, q, hk, _⟩
  cases hk

theorem misplacedAmong_cons {i : Nat} {a : Arg Syntax} {rest : List (Arg Syntax)} {p : Path} :
    MisplacedAmong i (a :: rest) p ↔ (∃ q, p = .arg i :: q ∧ MisplacedUnder a q) ∨ MisplacedAmong (i + 1) rest p := by
  constructor
  · rintro ⟨k, b, q, hk, rfl, hq⟩
    cases k with
    | zero =>
      cases hk
      exact .inl ⟨q, rfl, hq⟩
    | succ k => exact .inr ⟨k, b, q, hk, by rw [Nat.add_right_comm, Nat.add_assoc], hq⟩
  · rintro (⟨q, rfl, hq⟩ | ⟨k, b, q, hk, rfl, hq⟩)
    · exact ⟨0, a, q, rfl, rfl, hq⟩
    · exact ⟨k + 1, b, q, hk, by rw [Nat.add_right_comm, Nat.add_assoc], hq⟩

theorem misplacedUnder_define {lhs rhs : Syntax} {p : Path} :
    MisplacedUnder ⟨none, .define lhs rhs⟩ p ↔ Misplaced .definitionValue rhs p := by
  constructor
  · intro h
    cases h with
    | argument hdefinition _ => cases hdefinition
    | definitionValue h => exact h
  · exact .definitionValue

theorem misplacedUnder_argument {a : Arg Syntax} {p : Path} (ha : a.isDefinition = false) :
    MisplacedUnder a p ↔ Misplaced (.argument a.name) a.value p := by
  constructor
  · intro h
    cases h with
    | argument _ h => exact h
    | definitionValue _ => cases ha
  · exact .argument ha

/-- An unnamed splice is in its place, and nothing is read below it. -/
theorem not_misplacedUnder_splice (e : Syntax) (p : Path) : ¬ MisplacedUnder ⟨none, .splice e⟩ p := by
  rw [misplacedUnder_argument rfl]
  rintro ⟨r, e', h, hr⟩
  cases h with
  | here => exact hr rfl
  | argument hi _ _ => cases hi
  | definitionValue hi _ => cases hi

theorem misplacedAmong_of_args {x : Syntax} {i : Nat} {r : Role} {q : Path} (h : Misplaced r x (.arg i :: q)) :
    MisplacedAmong 0 x.args (.arg i :: q) := by
  obtain ⟨r', e, h, hr⟩ := h
  cases h with
  | argument hi ha h => exact ⟨i, _, q, hi, by rw [Nat.zero_add], .argument ha ⟨r', e, h, hr⟩⟩
  | definitionValue hi h => exact ⟨i, _, q, hi, by rw [Nat.zero_add], .definitionValue ⟨r', e, h, hr⟩⟩

theorem misplaced_of_among {x : Syntax} {r : Role} {p : Path} (h : MisplacedAmong 0 x.args p) : Misplaced r x p := by
  obtain ⟨k, a, q, hk, rfl, h⟩ := h
  rw [Nat.zero_add]
  cases h with
  | argument ha h =>
    obtain ⟨r', e, h, hr⟩ := h
    exact ⟨r', e, .argument hk ha h, hr⟩
  | definitionValue h =>
    obtain ⟨r', e, h, hr⟩ := h
    exact ⟨r', e, .definitionValue hk h, hr⟩

/-! ## Misplaced splices of syntax, by its shape -/

theorem misplaced_splice {r : Role} {e : Syntax} {p : Path} :
    Misplaced r (.splice e) p ↔ r ≠ .argument none ∧ p = [] := by
  constructor
  · rintro ⟨r', e', h, hr⟩
    cases h with
    | here => exact ⟨hr, rfl⟩
    | argument hi _ _ => cases hi
    | definitionValue hi _ => cases hi
  · rintro ⟨hr, rfl⟩
    exact ⟨r, e, .here, hr⟩

/-- Without a head and arguments, only a splice itself can be misplaced. -/
theorem not_misplaced_of_leaf {r : Role} {x : Syntax} (hargs : x.args = []) (happly : ∀ head args, x ≠ .apply head args)
    (hsplice : ∀ e, x ≠ .splice e) (p : Path) : ¬ Misplaced r x p := by
  rintro ⟨r', e, h, _⟩
  cases h with
  | here => exact hsplice e rfl
  | head _ => exact happly _ _ rfl
  | argument hi _ _ =>
    rw [hargs] at hi
    cases hi
  | definitionValue hi _ =>
    rw [hargs] at hi
    cases hi

theorem misplaced_list {r : Role} {args : List (Arg Syntax)} {p : Path} :
    Misplaced r (.list args) p ↔ MisplacedAmong 0 args p := by
  constructor
  · intro h
    have hp : ∃ i q, p = .arg i :: q := by
      obtain ⟨r', e, h, _⟩ := h
      cases h with
      | argument _ _ _ => exact ⟨_, _, rfl⟩
      | definitionValue _ _ => exact ⟨_, _, rfl⟩
    obtain ⟨i, q, rfl⟩ := hp
    exact misplacedAmong_of_args h
  · exact misplaced_of_among (x := .list args)

theorem misplaced_apply {r : Role} {head : Syntax} {args : List (Arg Syntax)} {p : Path} :
    Misplaced r (.apply head args) p ↔
      (∃ q, p = .head :: q ∧ Misplaced .head head q) ∨ MisplacedAmong 0 args p := by
  constructor
  · intro h
    have hp : (∃ q, p = .head :: q ∧ Misplaced .head head q) ∨ ∃ i q, p = .arg i :: q := by
      obtain ⟨r', e, h, hr⟩ := h
      cases h with
      | head h => exact .inl ⟨_, rfl, r', e, h, hr⟩
      | argument _ _ _ => exact .inr ⟨_, _, rfl⟩
      | definitionValue _ _ => exact .inr ⟨_, _, rfl⟩
    rcases hp with hp | ⟨i, q, rfl⟩
    · exact .inl hp
    · exact .inr (misplacedAmong_of_args h)
  · rintro (⟨q, rfl, r', e, h, hr⟩ | h)
    · exact ⟨r', e, .head h, hr⟩
    · exact misplaced_of_among (x := .apply head args) h

end Syntax

/-! ## Verdicts -/

/-- A reading is right about what is bad below a place: it succeeds if nothing is, and
otherwise fails at the first of it. -/
inductive Verdict {α : Type} (bad : Path → Prop) (path : Path) : Except Error α → Prop
  | ok {a} : (∀ p, ¬ bad p) → Verdict bad path (.ok a)
  | error {p} : bad p → (∀ q, bad q → q = p ∨ p.LeftOf q) →
      Verdict bad path (.error (.atPath .misplacedSplice (path ++ p)))

namespace Verdict

variable {α β : Type} {bad bad' : Path → Prop} {path : Path}

theorem congr {x : Except Error α} (h : Verdict bad path x) (hbad : ∀ p, bad' p ↔ bad p) : Verdict bad' path x := by
  have heq : bad' = bad := funext fun p => propext (hbad p)
  rwa [heq]

theorem map {x : Except Error α} (h : Verdict bad path x) (f : α → β) : Verdict bad path (x.map f) := by
  cases h with
  | ok hnone => exact .ok hnone
  | error hp hfirst => exact .error hp hfirst

/-- What is bad one step down, seen from above. -/
theorem under {x : Step} {r : Except Error α} (h : Verdict bad (path ++ [x]) r) :
    Verdict (fun p => ∃ q, p = x :: q ∧ bad q) path r := by
  cases h with
  | ok hnone =>
    refine .ok ?_
    rintro _ ⟨q, rfl, hq⟩
    exact hnone q hq
  | error hp hfirst =>
    rw [List.append_assoc]
    refine .error ⟨_, rfl, hp⟩ ?_
    rintro _ ⟨q, rfl, hq⟩
    rcases hfirst q hq with rfl | hleft
    · exact .inl rfl
    · exact .inr (.under hleft)

/-- Two readings one after the other, the places of the first being left of those of the
second. -/
theorem bind {x : Except Error α} {f : α → Except Error β} (hx : Verdict bad path x)
    (hf : ∀ a, Verdict bad' path (f a)) (hleft : ∀ p q, bad p → bad' q → p.LeftOf q) :
    Verdict (fun p => bad p ∨ bad' p) path (x >>= f) := by
  cases hx with
  | ok hnone =>
    refine (hf _).congr fun p => ?_
    exact or_iff_right (hnone p)
  | error hp hfirst =>
    refine .error (.inl hp) ?_
    rintro q (hq | hq)
    · exact hfirst q hq
    · exact .inr (hleft _ q hp hq)

end Verdict

/-! ## Reading -/

namespace Template

open Syntax

/-- Reading is right about the syntax, in whatever role it is read as a template. -/
def Judged (x : Syntax) : Prop :=
  ∀ r path, (r = .argument none → ∀ e, x ≠ .splice e) → Verdict (Misplaced r x) path (ofSyntaxAt path x)

theorem verdict_of_readAs {path : Path} {i : Nat} {a : Arg Syntax} {part : Except Error (Part Template)}
    (hpart : ReadAs path i a part) (ha : Judged a.value) (hr : ∀ lhs rhs, a.value = .define lhs rhs → Judged rhs) :
    Verdict (fun p => ∃ q, p = .arg i :: q ∧ MisplacedUnder a q) path part := by
  cases hpart with
  | splice =>
    refine .ok ?_
    rintro _ ⟨q, rfl, hq⟩
    exact not_misplacedUnder_splice _ q hq
  | @define lhs rhs =>
    have h : Verdict (MisplacedUnder ⟨none, .define lhs rhs⟩) (path ++ [.arg i]) (ofSyntaxAt (path ++ [.arg i]) rhs) :=
      (hr lhs rhs rfl .definitionValue _ nofun).congr fun _ => misplacedUnder_define
    exact (h.map _).under
  | arg hdefinition hsplice =>
    have hrole : Role.argument a.name = .argument none → ∀ e, a.value ≠ .splice e := by
      obtain ⟨name, value⟩ := a
      intro hname e he
      cases hname
      cases he
      exact hsplice e rfl
    have h : Verdict (MisplacedUnder a) (path ++ [.arg i]) (ofSyntaxAt (path ++ [.arg i]) a.value) :=
      (ha _ _ hrole).congr fun _ => misplacedUnder_argument hdefinition
    exact (h.map _).under

theorem verdict_of_partsAt {args : List (Arg Syntax)} (hargs : ∀ a ∈ args, Judged a.value)
    (hr : ∀ a ∈ args, ∀ lhs rhs, a.value = .define lhs rhs → Judged rhs) (path : Path) (i : Nat) :
    Verdict (MisplacedAmong i args) path (partsAt path i args) := by
  induction args generalizing i with
  | nil =>
    rw [partsAt]
    exact .ok (not_misplacedAmong_nil i)
  | cons a rest ih =>
    have hrest := ih (fun b hb => hargs b (List.mem_cons_of_mem a hb)) (fun b hb => hr b (List.mem_cons_of_mem a hb))
      (i + 1)
    obtain ⟨part, hpart, hcons⟩ := partsAt_cons path i a rest
    rw [hcons]
    have hfirst := verdict_of_readAs hpart (hargs a List.mem_cons_self) (hr a List.mem_cons_self)
    refine (hfirst.bind (fun p => hrest.map (p :: ·)) ?_).congr fun p => misplacedAmong_cons
    rintro _ _ ⟨p, rfl, _⟩ ⟨k, _, q, _, rfl, _⟩
    exact .fork (by simp only [Step.rank]; omega)

theorem judged (x : Syntax) : Judged x := by
  induction x using Syntax.inductionOnDefinitions with
  | literal c =>
    intro r path _
    rw [ofSyntaxAt]
    exact .ok (not_misplaced_of_leaf rfl nofun nofun)
  | ident name =>
    intro r path _
    rw [ofSyntaxAt]
    exact .ok (not_misplaced_of_leaf rfl nofun nofun)
  | unquote e _ =>
    intro r path _
    rw [ofSyntaxAt]
    exact .ok (not_misplaced_of_leaf rfl nofun nofun)
  | splice e _ =>
    intro r path hrole
    rw [ofSyntaxAt]
    have hr : r ≠ .argument none := fun h => hrole h e rfl
    have hverdict : Verdict (Misplaced r (.splice e)) path
        (.error (.atPath .misplacedSplice (path ++ [])) : Except Error Template) :=
      .error (misplaced_splice.2 ⟨hr, rfl⟩) fun q hq => .inl (misplaced_splice.1 hq).2
    rwa [List.append_nil] at hverdict
  | apply head args ihh iha ihr =>
    intro r path _
    rw [ofSyntaxAt]
    have hhead := (ihh .head (path ++ [.head]) nofun).under
    have hargs := verdict_of_partsAt iha ihr path 0
    refine (hhead.bind (fun t => hargs.map (Template.apply t)) ?_).congr fun p => misplaced_apply
    rintro _ _ ⟨p, rfl, _⟩ ⟨k, _, q, _, rfl, _⟩
    exact .fork (by simp [Step.rank])
  | list args iha ihr =>
    intro r path _
    rw [ofSyntaxAt]
    exact ((verdict_of_partsAt iha ihr path 0).map ofArgs).congr fun p => misplaced_list

end Template

/-- Reading syntax as a template fails just if a splice in it is the root, a head, a named
argument or the right side of a definition, and then at the first of these splices: all
others are to the right of it. -/
theorem rejects_first_misplaced_splice (x : Syntax) :
    ((∃ e, Template.ofSyntax x = .error e) ↔ ∃ p, x.Misplaced .root p) ∧
    ∀ e, Template.ofSyntax x = .error e →
      ∃ p, e = .atPath .misplacedSplice p ∧ x.Misplaced .root p ∧ ∀ q, x.Misplaced .root q → q = p ∨ p.LeftOf q := by
  have h := Template.judged x .root [] nofun
  rw [← Template.ofSyntax] at h
  generalize Template.ofSyntax x = result at h
  cases h with
  | ok hnone =>
    refine ⟨⟨nofun, ?_⟩, nofun⟩
    rintro ⟨p, hp⟩
    exact (hnone p hp).elim
  | @error p hp hfirst =>
    refine ⟨⟨fun _ => ⟨p, hp⟩, fun _ => ⟨_, rfl⟩⟩, ?_⟩
    rintro _ ⟨⟩
    exact ⟨p, rfl, hp, hfirst⟩

/-- The splice after the definition has its place. -/
example : Template.ofSyntax (.apply (.ident "f") [.unnamed (.define (.ident "a") (.splice (.ident "xs"))),
    .unnamed (.splice (.ident "ys"))]) = .error (.atPath .misplacedSplice [.arg 0]) := by
  cbv

end Quotation
