import Quotation.Eval.Builtin
import Mathlib.Algebra.Group.Int.Defs
import Mathlib.Data.List.Infix
/-!
# Arithmetic on integers

Integers are combined from left to right, and every result on the way has to be an integer again. So a
sum, a product or a difference is exact if all of its beginnings stay in the range of 64 bits, and
fails at the first one that does not (`integers_combine_exactly`). Nothing wraps around or becomes a
double.
-/

namespace Quotation

/-! ## The range of integers -/

/-- Whether 64 bits hold the integer. -/
def InRange (i : Int) : Prop := -2 ^ 63 ≤ i ∧ i < 2 ^ 63

theorem inRange_toInt (i : Int64) : InRange i.toInt := ⟨i.le_toInt, i.toInt_lt⟩

namespace Number

theorem inRange_iff {i : Int} : InRange i ↔ Int64.minValue.toInt ≤ i ∧ i ≤ Int64.maxValue.toInt := by
  show -2 ^ 63 ≤ i ∧ i < 2 ^ 63 ↔ -2 ^ 63 ≤ i ∧ i ≤ 2 ^ 63 - 1
  omega

theorem exists_ofInt? {i : Int} (h : InRange i) : ∃ r : Int64, ofInt? i = some (.int r) ∧ r.toInt = i :=
  ⟨Int64.ofInt i, if_pos (inRange_iff.1 h), Int64.toInt_ofInt_of_le h.1 h.2⟩

theorem ofInt?_eq_none {i : Int} (h : ¬ InRange i) : ofInt? i = none := if_neg (mt inRange_iff.2 h)

end Number

/-! ## Operations -/

/-- The operations that stay among the integers. -/
inductive Arithmetic where
  | plus
  | minus
  | times
deriving DecidableEq

namespace Arithmetic

def name : Arithmetic → String
  | plus => "+"
  | minus => "-"
  | times => "*"

/-- The builtin of the operation. -/
def apply : Arithmetic → List (Arg Value) → Except Error Value
  | plus => Builtin.sum
  | minus => Builtin.difference
  | times => Builtin.product

/-- The operation on two integers of any size. -/
def step : Arithmetic → Int → Int → Int
  | plus => (· + ·)
  | minus => (· - ·)
  | times => (· * ·)

/-- The operation on two numbers. -/
def combine? : Arithmetic → Number → Number → Option Number
  | plus => Number.add?
  | minus => Number.sub?
  | times => Number.mul?

/-- The exact sum, difference from left to right, or product. -/
def exact : Arithmetic → List Int64 → Int
  | plus, is => is.foldl (fun s j => s + j.toInt) 0
  | minus, [] => 0
  | minus, i :: is => is.foldl (fun d j => d - j.toInt) i.toInt
  | times, is => is.foldl (fun p j => p * j.toInt) 1

variable (op : Arithmetic)

theorem combine?_int (a b : Int64) : op.combine? (.int a) (.int b) = Number.ofInt? (op.step a.toInt b.toInt) := by
  cases op <;> rfl

theorem exact_singleton (i : Int64) : op.exact [i] = i.toInt := by
  cases op <;> simp [exact]

theorem exact_concat {is : List Int64} (h : is ≠ []) (j : Int64) :
    op.exact (is ++ [j]) = op.step (op.exact is) j.toInt := by
  cases op with
  | plus => simp [exact, step]
  | times => simp [exact, step]
  | minus =>
    obtain ⟨i, is, rfl⟩ := List.exists_cons_of_ne_nil h
    simp [exact, step]

/-- The result is in the range after each integer. -/
def StaysInRange (is : List Int64) : Prop := ∀ p, p <+: is → p ≠ [] → InRange (op.exact p)

/-- The result leaves the range with the integer `j`, after it came to `acc`. -/
def LeavesRange (is : List Int64) (acc j : Int64) : Prop :=
  ∃ before behind, is = before ++ j :: behind ∧ before ≠ [] ∧ op.StaysInRange before ∧ acc.toInt = op.exact before ∧
    ¬ InRange (op.exact (before ++ [j]))

variable {op} {is js : List Int64} {acc j : Int64}

theorem staysInRange_nil : op.StaysInRange [] := fun _ hp hne => absurd (List.prefix_nil.1 hp) hne

theorem staysInRange_concat (h : op.StaysInRange is) (hj : InRange (op.exact (is ++ [j]))) :
    op.StaysInRange (is ++ [j]) := by
  intro p hp hne
  rcases List.prefix_concat_iff.1 hp with rfl | hp
  · exact hj
  · exact h p hp hne

/-- An integer is in the range. -/
theorem staysInRange_singleton (i : Int64) : op.StaysInRange [i] :=
  staysInRange_concat staysInRange_nil (by rw [List.nil_append, exact_singleton]; exact inRange_toInt i)

theorem LeavesRange.not_staysInRange (h : op.LeavesRange is acc j) : ¬ op.StaysInRange is := by
  obtain ⟨before, behind, rfl, -, -, -, hout⟩ := h
  exact fun hrange => hout (hrange _ ⟨behind, by simp⟩ (by simp))

/-- There is one integer with which the result leaves the range first. -/
theorem LeavesRange.unique {acc' j' : Int64} (h : op.LeavesRange is acc j) (h' : op.LeavesRange is acc' j') :
    acc = acc' ∧ j = j' := by
  obtain ⟨before, behind, rfl, -, hrange, hacc, hout⟩ := h
  obtain ⟨before', behind', heq, -, hrange', hacc', hout'⟩ := h'
  rcases List.append_eq_append_iff.1 heq with ⟨_ | ⟨k, more⟩, hbefore, hrest⟩ | ⟨_ | ⟨k, more⟩, hbefore, hrest⟩
  · rw [hbefore, List.append_nil, ← hacc, Int64.toInt_inj] at hacc'
    exact ⟨hacc'.symm, (List.cons.inj hrest).1⟩
  · -- The first result out of the range would be one on the way to the second one.
    obtain rfl := (List.cons.inj hrest).1
    exact absurd (hrange' _ ⟨more, by simp [hbefore]⟩ (by simp)) hout
  · rw [hbefore, List.append_nil, ← hacc', Int64.toInt_inj] at hacc
    exact ⟨hacc, (List.cons.inj hrest).1.symm⟩
  · obtain rfl := (List.cons.inj hrest).1
    exact absurd (hrange _ ⟨more, by simp [hbefore]⟩ (by simp)) hout'

/-! ## Combining from left to right -/

/-- What is returned for integers: the exact result, or the failure at the first one out of the range. -/
inductive Combined (op : Arithmetic) (is : List Int64) : Except Error Value → Prop where
  | exact {r : Int64} (hrange : op.StaysInRange is) (hr : r.toInt = op.exact is) : Combined op is (.ok (.ofInt r))
  | overflow {acc j : Int64} (h : op.LeavesRange is acc j) :
    Combined op is (.error (.of (.rejected (.overflow op.name (.int acc) (.int j)))))

theorem Combined.ok_iff {r : Except Error Value} (h : Combined op is r) (v : Value) :
    r = .ok v ↔ op.StaysInRange is ∧ ∃ i : Int64, i.toInt = op.exact is ∧ v = .ofInt i := by
  cases h with
  | exact hrange hr =>
    constructor
    · rintro ⟨⟩
      exact ⟨hrange, _, hr, rfl⟩
    · rintro ⟨-, i, hi, rfl⟩
      rw [← hr, Int64.toInt_inj] at hi
      rw [hi]
  | overflow h => exact iff_of_false nofun fun hok => h.not_staysInRange hok.1

theorem Combined.error_iff {r : Except Error Value} (h : Combined op is r) (e : Error) :
    r = .error e ↔ ∃ acc j, op.LeavesRange is acc j ∧
      e = .of (.rejected (.overflow op.name (.int acc) (.int j))) := by
  cases h with
  | exact hrange hr => exact iff_of_false nofun fun ⟨_, _, h, _⟩ => h.not_staysInRange hrange
  | overflow h =>
    constructor
    · rintro ⟨⟩
      exact ⟨_, _, h, rfl⟩
    · rintro ⟨acc, j, h', rfl⟩
      obtain ⟨rfl, rfl⟩ := h.unique h'
      rfl

theorem number_ofInt (procedure : String) (i : Int64) : Builtin.number procedure (.ofInt i) = .ok (.int i) := rfl

/-- From integers whose result is `acc` on, each further one is added to it or ends the combination. -/
theorem combined_fold {args : List (Arg Value)} (hargs : args.map (·.value) = js.map .ofInt) (hne : is ≠ [])
    (hacc : acc.toInt = op.exact is) (hrange : op.StaysInRange is) :
    Combined op (is ++ js) ((Builtin.fold op.name op.combine? (.int acc) args).map Value.ofNumber) := by
  induction js generalizing is acc args with
  | nil =>
    obtain rfl := List.map_eq_nil_iff.1 hargs
    rw [List.append_nil]
    exact .exact hrange hacc
  | cons j js ih =>
    obtain ⟨a, args, rfl, (ha : a.value = _), hargs⟩ := List.map_eq_cons_iff.1 hargs
    have hstep : Builtin.fold op.name op.combine? (.int acc) (a :: args) =
        (Number.ofInt? (op.exact (is ++ [j]))).elim (.error (.of (.rejected (.overflow op.name (.int acc) (.int j)))))
          fun r => Builtin.fold op.name op.combine? r args := by
      rw [exact_concat op hne, ← hacc, ← combine?_int, Builtin.fold, ha, number_ofInt]
      cases h : op.combine? (.int acc) (.int j) <;> simp [h, bind, Except.bind]
    rw [hstep]
    by_cases hj : InRange (op.exact (is ++ [j]))
    · obtain ⟨r, hr, hexact⟩ := Number.exists_ofInt? hj
      rw [hr, List.append_cons]
      exact ih hargs (by simp) hexact (staysInRange_concat hrange hj)
    · rw [Number.ofInt?_eq_none hj]
      exact .overflow ⟨is, js, rfl, hne, hrange, hacc, hj⟩

theorem apply_nil (h : op ≠ .minus) : Combined op [] (op.apply []) := by
  cases op with
  | plus => exact .exact staysInRange_nil rfl
  | times => exact .exact staysInRange_nil rfl
  | minus => exact absurd rfl h

theorem apply_cons {a : Arg Value} {args : List (Arg Value)} (h : op = .minus → args ≠ []) :
    op.apply (a :: args) = Builtin.foldAll op.name op.combine? (a :: args) := by
  cases op with
  | plus => rfl
  | times => rfl
  | minus =>
    obtain ⟨b, args, rfl⟩ := List.exists_cons_of_ne_nil (h rfl)
    rfl

/-- Two or more integers are combined, and for sums and products also fewer. -/
theorem combined_apply {args : List (Arg Value)} (hargs : args.map (·.value) = is.map .ofInt)
    (hlength : op = .minus → 2 ≤ is.length) : Combined op is (op.apply args) := by
  have hsame : args.length = is.length := by simpa using congrArg List.length hargs
  cases is with
  | nil =>
    obtain rfl := List.map_eq_nil_iff.1 hargs
    exact apply_nil fun h => by simpa using hlength h
  | cons i is =>
    obtain ⟨a, args, rfl, (ha : a.value = _), hargs⟩ := List.map_eq_cons_iff.1 hargs
    have htwo : op = .minus → args ≠ [] := fun h hnil => by simpa [hnil] using hsame.trans_ge (hlength h)
    have hall : op.apply (a :: args) = (Builtin.fold op.name op.combine? (.int i) args).map Value.ofNumber := by
      rw [apply_cons htwo, Builtin.foldAll, ha, number_ofInt]
      rfl
    rw [hall, ← List.singleton_append]
    exact combined_fold hargs (List.cons_ne_nil i []) (exact_singleton op i).symm (staysInRange_singleton i)

/-! ## Negation -/

/-- The negation of an integer is exact, and only the least one has none. -/
theorem difference_singleton {a : Arg Value} {i : Int64} (ha : a.value = .ofInt i) :
    (i ≠ Int64.minValue → ∃ r : Int64, r.toInt = -i.toInt ∧ Builtin.difference [a] = .ok (.ofInt r)) ∧
      (i = Int64.minValue →
        Builtin.difference [a] = .error (argumentError "-" (.ofInt Int64.minValue) .negatable)) := by
  have hneg : Builtin.difference [a] = (Number.ofInt? (-i.toInt)).elim
      (.error (argumentError "-" (.ofInt i) .negatable)) fun r => .ok (.ofNumber r) := by
    have hneg? : (Number.int i).neg? = Number.ofInt? (-i.toInt) := rfl
    rw [Builtin.difference, ha, number_ofInt, ← hneg?]
    cases h : (Number.int i).neg? <;> simp [h, bind, Except.bind, pure, Except.pure]
  rw [hneg]
  constructor
  · intro hi
    have hrange : InRange (-i.toInt) := by
      have hlow := i.le_toInt
      have hhigh := i.toInt_lt
      have hne : i.toInt ≠ -2 ^ 63 := fun h => hi (Int64.toInt_inj.1 h)
      exact ⟨by omega, by omega⟩
    obtain ⟨r, hr, hexact⟩ := Number.exists_ofInt? hrange
    rw [hr]
    exact ⟨r, hexact, rfl⟩
  · rintro rfl
    rfl

/-! ## Integers -/

/-- Integers are combined exactly as long as the result is in the range after each of them, and fail at the first one
with which it is not. A single integer is negated by `-`, exactly unless it is the least one. -/
theorem integers_combine_exactly (op : Arithmetic) {args : List (Arg Value)} {is : List Int64}
    (hargs : args.map (·.value) = is.map .ofInt) :
    ((op = .minus → 2 ≤ is.length) →
      (∀ v, op.apply args = .ok v ↔ op.StaysInRange is ∧ ∃ r : Int64, r.toInt = op.exact is ∧ v = .ofInt r) ∧
      ∀ e, op.apply args = .error e ↔ ∃ acc j, op.LeavesRange is acc j ∧
        e = .of (.rejected (.overflow op.name (.int acc) (.int j)))) ∧
    ∀ i, op = .minus → is = [i] →
      (i ≠ Int64.minValue → ∃ r : Int64, r.toInt = -i.toInt ∧ op.apply args = .ok (.ofInt r)) ∧
      (i = Int64.minValue → op.apply args = .error (argumentError "-" (.ofInt Int64.minValue) .negatable)) := by
  refine ⟨fun hlength => ?_, ?_⟩
  · have hcombined := combined_apply hargs hlength
    exact ⟨hcombined.ok_iff, hcombined.error_iff⟩
  · rintro i rfl rfl
    obtain ⟨a, rest, rfl, (ha : a.value = _), hrest⟩ := List.map_eq_cons_iff.1 hargs
    obtain rfl := List.map_eq_nil_iff.1 hrest
    exact difference_singleton ha

/-- A product that comes back into the range has left it before. -/
theorem integers_combine_exactly_back :
    let is : List Int64 := [4611686018427387904, 2, 0]
    let args : List (Arg Value) := is.map fun i => .unnamed (.ofInt i)
    args.map (·.value) = is.map .ofInt ∧ Arithmetic.times.exact is = 0 ∧
      Builtin.product args = .error (.of (.rejected (.overflow "*" (.int 4611686018427387904) (.int 2)))) := by
  intro is args
  have hargs : args.map (·.value) = is.map .ofInt := rfl
  have hleaves : Arithmetic.times.LeavesRange is 4611686018427387904 2 :=
    ⟨[4611686018427387904], [0], rfl, by decide, staysInRange_singleton _, by decide, by unfold InRange; decide⟩
  exact ⟨hargs, by decide, (((integers_combine_exactly .times hargs).1 nofun).2 _).2 ⟨_, _, hleaves, rfl⟩⟩

end Arithmetic

end Quotation
