import Quotation.Eval.Matching
import Mathlib.Data.List.Basic
import Mathlib.Data.List.Nodup
import Mathlib.Data.List.Perm.Basic
/-!
# What matching gives

Arguments are matched with parameters in two passes, by name and by place. `Matchable` says when
both go through, and `Matched` what then stands in each slot and in the tail: nothing is lost, and
nothing is used twice. `ofArgs_eq_ok_iff` says that this is all there is to matching.
-/

namespace Quotation.Matching

/-! ## What is expected of matching -/

section
variable (params : List Param) (args : List (Arg PromiseId))

/-- Whether the name of an argument is that of a parameter other than the tail. -/
def isMatched (a : Arg PromiseId) : Bool := params.any fun p => p.name != tailName && a.name == some p.name

/-- The first parameter of the name that an argument has, unless it is the tail. -/
def named? (a : Arg PromiseId) : Option Nat :=
  a.name.bind fun name => if name = tailName then none else params.findIdx? (·.name == name)

/-- How many parameters can be filled by place: the ones before the tail, or all. -/
def boundary : Nat := (tailPlace? params).getD params.length

/-- The slots that are to be filled by place, in order: the ones that no argument names. -/
def freeSlots : List Nat := (List.range (boundary params)).filter fun i => args.all (named? params · != some i)

/-- When matching succeeds: no parameter is named twice, and the arguments that are not matched by
name go to the tail, or all find a slot. -/
structure Matchable : Prop where
  once : ((args.filter (isMatched params)).map (·.name)).Nodup
  room : (∃ p ∈ params, p.name = tailName) ∨
    ((∀ a ∈ args, isMatched params a = false → a.name = none) ∧
      (args.filter fun a => !isMatched params a).length ≤ (freeSlots params args).length)

/-- The arguments without the first ones that have no name, as many as told. -/
def dropUnnamed : Nat → List (Arg PromiseId) → List (Arg PromiseId)
  | _, [] => []
  | 0, args => args
  | n + 1, a :: as => if a.name.isNone then dropUnnamed n as else a :: dropUnnamed (n + 1) as

/-- Where the arguments have come to: the ones matched by name in the first slot of that name, the
ones without name in the free slots, in order, and all others in the tail, in order. -/
structure Matched (m : Matching) : Prop where
  length : m.slots.length = params.length
  named : ∀ a ∈ args, ∀ i, named? params a = some i → m.slots[i]? = some (some a.value)
  placed : ∀ k i : Nat, (freeSlots params args)[k]? = some i →
    m.slots[i]? = some ((args.filter (·.name.isNone))[k]?.map Arg.value)
  others : ∀ i < params.length, i ∉ freeSlots params args → (∀ a ∈ args, named? params a ≠ some i) →
    m.slots[i]? = some none
  tail : m.tail = dropUnnamed (freeSlots params args).length (args.filter fun a => !isMatched params a)
  /-- each argument is in one place, once -/
  conserved : (m.slots.filterMap id ++ m.tail.map Arg.value).Perm (args.map Arg.value)

end

/-! ## Arguments that match by name -/

variable {params : List Param} {a b : Arg PromiseId} {i : Nat}

theorem named?_eq_some_iff : named? params a = some i ↔ ∃ p, params[i]? = some p ∧ a.name = some p.name ∧
    p.name ≠ tailName ∧ ∀ j < i, ∀ q, params[j]? = some q → q.name ≠ p.name := by
  rw [named?, Option.bind_eq_some_iff]
  constructor
  · rintro ⟨name, hname, h⟩
    split at h
    · cases h
    · rename_i htail
      obtain ⟨hi, hp, hbefore⟩ := List.findIdx?_eq_some_iff_getElem.1 h
      obtain rfl : params[i].name = name := eq_of_beq hp
      refine ⟨params[i], List.getElem?_eq_getElem hi, hname, htail, fun j hj q hq => ?_⟩
      obtain ⟨hj', rfl⟩ := List.getElem?_eq_some_iff.1 hq
      simpa using hbefore j hj
  · rintro ⟨p, hp, hname, htail, hbefore⟩
    obtain ⟨hi, rfl⟩ := List.getElem?_eq_some_iff.1 hp
    refine ⟨_, hname, ?_⟩
    rw [if_neg htail, List.findIdx?_eq_some_iff_getElem]
    exact ⟨hi, beq_self_eq_true _, fun j hj => by
      simpa using hbefore j hj _ (List.getElem?_eq_getElem (Nat.lt_trans hj hi))⟩

theorem lt_length_of_named? (h : named? params a = some i) : i < params.length := by
  obtain ⟨p, hp, _⟩ := named?_eq_some_iff.1 h
  exact (List.getElem?_eq_some_iff.1 hp).1

/-- Arguments are for the same parameter if they have the same name. -/
theorem named?_eq_iff (ha : named? params a = some i) : named? params b = some i ↔ b.name = a.name := by
  constructor
  · intro hb
    obtain ⟨p, hp, hname, _⟩ := named?_eq_some_iff.1 ha
    obtain ⟨q, hq, hname', _⟩ := named?_eq_some_iff.1 hb
    rw [hp] at hq
    cases hq
    rw [hname, hname']
  · intro h
    rw [← ha, named?, named?, h]

theorem isMatched_eq (params : List Param) (a : Arg PromiseId) : isMatched params a = (named? params a).isSome := by
  rw [Bool.eq_iff_iff]
  constructor
  · intro h
    obtain ⟨p, hp, h⟩ := List.any_eq_true.1 h
    rw [Bool.and_eq_true] at h
    have htail : p.name ≠ tailName := by simpa using h.1
    have hname : a.name = some p.name := by simpa using h.2
    have hfound : (params.findIdx? (·.name == p.name)).isSome := by
      rw [List.findIdx?_isSome]
      exact List.any_eq_true.2 ⟨p, hp, beq_self_eq_true _⟩
    rw [named?, hname, Option.bind_some, if_neg htail]
    exact hfound
  · intro h
    obtain ⟨i, hi⟩ := Option.isSome_iff_exists.1 h
    obtain ⟨p, hp, hname, htail, _⟩ := named?_eq_some_iff.1 hi
    refine List.any_eq_true.2 ⟨p, List.mem_of_getElem? hp, ?_⟩
    rw [Bool.and_eq_true]
    exact ⟨by simpa using htail, by simpa using hname⟩

theorem not_isMatched_of_unnamed (h : a.name.isNone = true) : isMatched params a = false := by
  rw [isMatched_eq, named?, Option.isNone_iff_eq_none.1 h]
  rfl

theorem slot?_eq_none_iff : slot? params a = none ↔ named? params a = none := by
  rw [slot?, named?]
  cases a.name with
  | none => simp
  | some name =>
    dsimp only [Option.bind_some]
    split
    · simp
    · exact Option.map_eq_none_iff

theorem named?_of_slot? {name : String} (h : slot? params a = some (name, i)) : named? params a = some i := by
  rw [slot?] at h
  rw [named?]
  split at h
  · rename_i name' hname
    split at h
    · cases h
    · rename_i htail
      obtain ⟨j, hj, hji⟩ := Option.map_eq_some_iff.1 h
      cases hji
      rw [hname, Option.bind_some, if_neg htail, hj]
  · cases h

/-! ## The first pass -/

/-- The slots that arguments name are free, and each is named once. -/
def AreNamable (params : List Param) (slots : List (Option PromiseId)) (args : List (Arg PromiseId)) : Prop :=
  (args.filterMap (named? params)).Nodup ∧ ∀ i ∈ args.filterMap (named? params), slots[i]? = some none

/-- The slots after the first pass, and the arguments that are left. -/
structure FilledByName (params : List Param) (slots : List (Option PromiseId)) (args : List (Arg PromiseId))
    (slots' : List (Option PromiseId)) (rest : List (Arg PromiseId)) : Prop where
  length : slots'.length = slots.length
  filled : ∀ a ∈ args, ∀ i, named? params a = some i → slots'[i]? = some (some a.value)
  kept : ∀ i, (∀ a ∈ args, named? params a ≠ some i) → slots'[i]? = slots[i]?
  left : rest = args.filter fun a => !isMatched params a
  conserved : (slots'.filterMap id ++ rest.map Arg.value).Perm (slots.filterMap id ++ args.map Arg.value)

variable {slots slots' : List (Option PromiseId)} {args rest : List (Arg PromiseId)} {p : PromiseId}

/-- Filling a free slot adds what it is filled with. -/
theorem filterMap_set_perm (h : slots[i]? = some none) :
    ((slots.set i (some p)).filterMap id).Perm (p :: slots.filterMap id) := by
  induction slots generalizing i with
  | nil => cases h
  | cons slot slots ih =>
    cases i with
    | zero =>
      cases h
      exact .refl _
    | succ i =>
      have hrest := ih (i := i) h
      cases slot with
      | none => exact hrest
      | some q => exact (hrest.cons q).trans (.swap p q _)

theorem areNamable_cons_none (h : named? params a = none) :
    AreNamable params slots (a :: args) ↔ AreNamable params slots args := by
  rw [AreNamable, List.filterMap_cons_none h, AreNamable]

theorem areNamable_cons_some (h : named? params a = some i) (hi : i < slots.length) :
    AreNamable params slots (a :: args) ↔
      slots[i]? = some none ∧ AreNamable params (slots.set i (some a.value)) args := by
  rw [AreNamable, List.filterMap_cons_some h, AreNamable, List.nodup_cons, List.forall_mem_cons]
  constructor
  · rintro ⟨⟨hnot, hnodup⟩, hfree, hrest⟩
    refine ⟨hfree, hnodup, fun j hj => ?_⟩
    have hij : i ≠ j := fun hij => hnot (hij ▸ hj)
    rw [List.getElem?_set_ne hij, hrest j hj]
  · rintro ⟨hfree, hnodup, hrest⟩
    have hne : ∀ j ∈ args.filterMap (named? params), i ≠ j := by
      rintro j hj rfl
      have hset := hrest i hj
      rw [List.getElem?_set_self hi] at hset
      cases hset
    exact ⟨⟨fun hi => hne i hi rfl, hnodup⟩, hfree, fun j hj => by rw [← List.getElem?_set_ne (hne j hj), hrest j hj]⟩

namespace FilledByName

theorem skip (ha : named? params a = none) (h : FilledByName params slots args slots' rest) :
    FilledByName params slots (a :: args) slots' (a :: rest) where
  length := h.length
  filled b hb i hi := by
    rcases List.mem_cons.1 hb with rfl | hb
    · rw [ha] at hi
      cases hi
    · exact h.filled b hb i hi
  kept i hi := h.kept i fun b hb => hi b (.tail _ hb)
  left := by
    rw [List.filter_cons, isMatched_eq, ha, h.left]
    rfl
  conserved := List.perm_middle.trans ((h.conserved.cons a.value).trans List.perm_middle.symm)

theorem fill (ha : named? params a = some i) (hfree : slots[i]? = some none)
    (hother : ∀ b ∈ args, named? params b ≠ some i)
    (h : FilledByName params (slots.set i (some a.value)) args slots' rest) :
    FilledByName params slots (a :: args) slots' rest where
  length := by rw [h.length, List.length_set]
  filled b hb j hj := by
    rcases List.mem_cons.1 hb with rfl | hb
    · rw [ha] at hj
      cases hj
      rw [h.kept i hother, List.getElem?_set_self (List.getElem?_eq_some_iff.1 hfree).1]
    · exact h.filled b hb j hj
  kept j hj := by
    have hij : i ≠ j := fun hij => hj a (.head _) (hij ▸ ha)
    rw [h.kept j fun b hb => hj b (.tail _ hb), List.getElem?_set_ne hij]
  left := by
    rw [List.filter_cons, isMatched_eq, ha, h.left]
    rfl
  conserved := (h.conserved.trans ((filterMap_set_perm hfree).append_right _)).trans List.perm_middle.symm

end FilledByName

/-- The first pass fails on the first slot that is named again. -/
theorem byName_cases (args : List (Arg PromiseId)) (hlength : slots.length = params.length) :
    (AreNamable params slots args ∧ ∃ slots' rest, byName params slots args = .ok (slots', rest) ∧
      FilledByName params slots args slots' rest) ∨
    (¬ AreNamable params slots args ∧ ∃ mismatch, byName params slots args = .error mismatch) := by
  induction args generalizing slots with
  | nil => exact .inl ⟨⟨.nil, nofun⟩, slots, [], rfl, rfl, nofun, fun _ _ => rfl, rfl, .refl _⟩
  | cons a as ih =>
    rw [byName]
    split
    · rename_i hslot
      have hnone := slot?_eq_none_iff.1 hslot
      rw [areNamable_cons_none hnone]
      rcases ih hlength with ⟨h, slots', rest, hok, hfilled⟩ | ⟨h, mismatch, herror⟩
      · exact .inl ⟨h, slots', a :: rest, by rw [hok]; rfl, hfilled.skip hnone⟩
      · exact .inr ⟨h, mismatch, by rw [herror]; rfl⟩
    · rename_i name i hslot
      have hi := named?_of_slot? hslot
      have hlt : i < slots.length := hlength ▸ lt_length_of_named? hi
      rw [areNamable_cons_some hi hlt]
      split
      · rename_i htaken
        refine .inr ⟨fun h => ?_, _, rfl⟩
        rw [h.1] at htaken
        cases htaken
      · rename_i hfree
        have hfree : slots[i]? = some none := by
          rw [List.getElem?_eq_getElem hlt] at hfree ⊢
          exact congrArg some (by simpa using hfree)
        have hlength' : (slots.set i (some a.value)).length = params.length := by rw [List.length_set, hlength]
        rcases ih hlength' with ⟨h, slots', rest, hok, hfilled⟩ | ⟨h, mismatch, herror⟩
        · refine .inl ⟨⟨hfree, h⟩, slots', rest, hok, hfilled.fill hi hfree fun b hb hbi => ?_⟩
          -- the slot is taken in the rest of the pass
          have hset := h.2 i (List.mem_filterMap.2 ⟨b, hb, hbi⟩)
          rw [List.getElem?_set_self hlt] at hset
          cases hset
        · exact .inr ⟨fun hboth => h hboth.2, mismatch, herror⟩

/-! ## The second pass -/

/-- The free slots among the first ones, in order. -/
def freeBelow (n : Nat) (slots : List (Option PromiseId)) : List Nat :=
  (List.range n).filter fun i => slots[i]? == some none

theorem mem_freeBelow {n : Nat} : i ∈ freeBelow n slots ↔ i < n ∧ slots[i]? = some none := by
  rw [freeBelow, List.mem_filter, List.mem_range, beq_iff_eq]

/-- The first free slot is filled. -/
theorem fillFree_eq (p : PromiseId) : ∀ (n : Nat) (slots : List (Option PromiseId)),
    fillFree p n slots = (freeBelow n slots).head?.map fun i => slots.set i (some p)
  | 0, slots => by cases slots <;> rfl
  | n + 1, [] => by simp [fillFree, freeBelow]
  | n + 1, none :: slots => by
    rw [freeBelow, List.range_succ_eq_map, List.filter_cons_of_pos rfl]
    rfl
  | n + 1, some q :: slots => by
    rw [fillFree, fillFree_eq p n slots, freeBelow, freeBelow, List.range_succ_eq_map,
      List.filter_cons_of_neg (by simp), List.filter_map, List.head?_map, Option.map_map, Option.map_map]
    rfl

/-- Once the first free slot is filled, the others are free. -/
theorem freeBelow_set {n : Nat} {is : List Nat} (h : freeBelow n slots = i :: is) :
    freeBelow n (slots.set i (some p)) = is := by
  have hnodup : (i :: is).Nodup := h ▸ (List.nodup_range).filter _
  have hi : i < slots.length :=
    (List.getElem?_eq_some_iff.1 (mem_freeBelow.1 (h ▸ List.mem_cons_self : i ∈ freeBelow n slots)).2).1
  have hset : freeBelow n (slots.set i (some p)) = (freeBelow n slots).filter (· != i) := by
    rw [freeBelow, freeBelow, List.filter_filter]
    refine List.filter_congr fun j _ => ?_
    by_cases hj : j = i
    · subst hj
      simp [List.getElem?_set_self hi]
    · rw [List.getElem?_set_ne (Ne.symm hj)]
      simp [hj]
  rw [hset, h, List.filter_cons_of_neg (by simp), List.filter_eq_self]
  intro j hj
  have hji : j ≠ i := fun hji => (List.nodup_cons.1 hnodup).1 (hji ▸ hj)
  simpa using hji

/-- The arguments that are left go to the tail, or all find a free slot. -/
def HaveRoom (hasTail : Bool) (free : List Nat) (args : List (Arg PromiseId)) : Prop :=
  hasTail = true ∨ ((∀ a ∈ args, a.name = none) ∧ args.length ≤ free.length)

/-- The slots and the tail after the second pass. -/
structure FilledByPlace (free : List Nat) (slots : List (Option PromiseId)) (args : List (Arg PromiseId))
    (m : Matching) : Prop where
  length : m.slots.length = slots.length
  placed : ∀ k i : Nat, free[k]? = some i → m.slots[i]? = some ((args.filter (·.name.isNone))[k]?.map Arg.value)
  kept : ∀ i, i ∉ free → m.slots[i]? = slots[i]?
  tail : m.tail = dropUnnamed free.length args
  conserved : (m.slots.filterMap id ++ m.tail.map Arg.value).Perm (slots.filterMap id ++ args.map Arg.value)

theorem dropUnnamed_zero (args : List (Arg PromiseId)) : dropUnnamed 0 args = args := by
  cases args <;> rfl

theorem dropUnnamed_sublist (n : Nat) (args : List (Arg PromiseId)) : (dropUnnamed n args).Sublist args := by
  fun_induction dropUnnamed n args with
  | case1 => exact .slnil
  | case2 args => exact .refl args
  | case3 n a as hname ih => exact ih.cons a
  | case4 n a as hname ih => exact ih.cons_cons a

theorem dropUnnamed_cons {n : Nat} (h : n = 0 ∨ a.name ≠ none) :
    dropUnnamed n (a :: args) = a :: dropUnnamed n args := by
  cases n with
  | zero => rw [dropUnnamed_zero, dropUnnamed_zero]
  | succ n =>
    have hname : a.name ≠ none := h.resolve_left (Nat.succ_ne_zero n)
    rw [dropUnnamed, if_neg (by simpa using hname)]

namespace FilledByPlace

variable {free : List Nat} {m : Matching}

theorem nil (h : ∀ i ∈ free, slots[i]? = some none) : FilledByPlace free slots [] ⟨slots, []⟩ where
  length := rfl
  placed k i hk := h i (List.mem_of_getElem? hk)
  kept _ _ := rfl
  tail := by cases free <;> rfl
  conserved := .refl _

/-- An argument that finds no slot goes to the tail. -/
theorem skip (ha : free = [] ∨ a.name ≠ none) (h : FilledByPlace free slots args m) :
    FilledByPlace free slots (a :: args) { m with tail := a :: m.tail } where
  length := h.length
  placed k i hk := by
    rcases ha with rfl | ha
    · cases hk
    · rw [List.filter_cons_of_neg (by simpa using ha)]
      exact h.placed k i hk
  kept := h.kept
  tail := by rw [dropUnnamed_cons (ha.imp_left fun hfree => by rw [hfree]; rfl), h.tail]
  conserved := List.perm_middle.trans ((h.conserved.cons a.value).trans List.perm_middle.symm)

theorem fill (ha : a.name = none) (hfree : slots[i]? = some none) (hnot : i ∉ free)
    (h : FilledByPlace free (slots.set i (some a.value)) args m) : FilledByPlace (i :: free) slots (a :: args) m where
  length := by rw [h.length, List.length_set]
  placed k j hk := by
    rw [List.filter_cons_of_pos (by simp [ha])]
    cases k with
    | zero =>
      cases hk
      rw [h.kept i hnot, List.getElem?_set_self (List.getElem?_eq_some_iff.1 hfree).1]
      rfl
    | succ k => exact h.placed k j hk
  kept j hj := by
    rw [List.mem_cons, not_or] at hj
    rw [h.kept j hj.2, List.getElem?_set_ne (Ne.symm hj.1)]
  tail := by
    rw [List.length_cons, dropUnnamed, if_pos (by simp [ha]), h.tail]
  conserved := (h.conserved.trans ((filterMap_set_perm hfree).append_right _)).trans List.perm_middle.symm

end FilledByPlace

theorem haveRoom_cons {hasTail : Bool} {is : List Nat} (ha : a.name = none) :
    HaveRoom hasTail (i :: is) (a :: args) ↔ HaveRoom hasTail is args := by
  rw [HaveRoom, HaveRoom, List.forall_mem_cons, List.length_cons, List.length_cons, Nat.add_le_add_iff_right]
  simp only [ha, true_and]

theorem not_haveRoom_cons {free : List Nat} (ha : free = [] ∨ a.name ≠ none) : ¬ HaveRoom false free (a :: args) := by
  rintro (h | ⟨hnames, hlength⟩)
  · cases h
  · rcases ha with rfl | ha
    · cases hlength
    · exact ha (hnames a (.head _))

/-- An argument without name fills the first slot that is free, if there is one. -/
theorem place_cases (n : Nat) (slots : List (Option PromiseId)) (a : Arg PromiseId) :
    (a.name = none ∧ ∃ i is, freeBelow n slots = i :: is ∧
      (if a.name.isNone then fillFree a.value n slots else none) = some (slots.set i (some a.value))) ∨
    ((freeBelow n slots = [] ∨ a.name ≠ none) ∧ (if a.name.isNone then fillFree a.value n slots else none) = none) := by
  cases hname : a.name with
  | some name => exact .inr ⟨.inr nofun, rfl⟩
  | none =>
    rw [Option.isNone_none, if_pos rfl, fillFree_eq]
    cases freeBelow n slots with
    | nil => exact .inr ⟨.inl rfl, rfl⟩
    | cons i is => exact .inl ⟨rfl, i, is, rfl, rfl⟩

/-- The second pass fails on the first argument that finds no slot, if there is no tail. -/
theorem byPlace_cases (exprOf : PromiseId → Node) (n : Nat) (hasTail : Bool) (slots : List (Option PromiseId))
    (args : List (Arg PromiseId)) :
    (HaveRoom hasTail (freeBelow n slots) args ∧ ∃ m, byPlace exprOf n hasTail slots args = .ok m ∧
      FilledByPlace (freeBelow n slots) slots args m) ∨
    (¬ HaveRoom hasTail (freeBelow n slots) args ∧ ∃ mismatch,
      byPlace exprOf n hasTail slots args = .error mismatch) := by
  induction args generalizing slots with
  | nil => exact .inl ⟨.inr ⟨nofun, Nat.zero_le _⟩, ⟨slots, []⟩, rfl, .nil fun i hi => (mem_freeBelow.1 hi).2⟩
  | cons a as ih =>
    rw [byPlace]
    rcases place_cases n slots a with ⟨hname, i, is, hcons, hfill⟩ | ⟨hno, hfill⟩
    · have hfree : slots[i]? = some none := (mem_freeBelow.1 (hcons ▸ List.mem_cons_self)).2
      have hnodup : (i :: is).Nodup := hcons ▸ List.nodup_range.filter _
      have hrest := ih (slots.set i (some a.value))
      rw [freeBelow_set hcons] at hrest
      rw [hfill, hcons, haveRoom_cons hname]
      exact hrest.imp_left fun ⟨h, m, hok, hfilled⟩ =>
        ⟨h, m, hok, hfilled.fill hname hfree (List.nodup_cons.1 hnodup).1⟩
    · rw [hfill]
      cases hasTail with
      | true =>
        -- nothing fails where there is a tail
        rcases ih slots with ⟨_, m, hok, hfilled⟩ | ⟨h, _⟩
        · exact .inl ⟨.inl rfl, _, by rw [hok]; rfl, hfilled.skip hno⟩
        · exact absurd (.inl rfl) h
      | false => exact .inr ⟨not_haveRoom_cons hno, _, rfl⟩

/-! ## Both passes -/

theorem boundary_le (params : List Param) : boundary params ≤ params.length := by
  rw [boundary, tailPlace?]
  cases h : params.findIdx? (·.name == tailName) with
  | none => exact Nat.le_refl _
  | some i => exact Nat.le_of_lt (List.findIdx?_eq_some_iff_getElem.1 h).1

theorem isSome_tailPlace? : (tailPlace? params).isSome = true ↔ ∃ p ∈ params, p.name = tailName := by
  rw [tailPlace?, List.findIdx?_isSome, List.any_eq_true]
  simp only [beq_iff_eq]

theorem nodup_map_name_iff (params : List Param) (args : List (Arg PromiseId)) :
    ((args.filter (isMatched params)).map (·.name)).Nodup ↔ (args.filterMap (named? params)).Nodup := by
  induction args with
  | nil => simp
  | cons a as ih =>
    cases ha : named? params a with
    | none => rw [List.filterMap_cons_none ha, List.filter_cons_of_neg (by simp [isMatched_eq, ha]), ih]
    | some i =>
      rw [List.filterMap_cons_some ha, List.filter_cons_of_pos (by simp [isMatched_eq, ha]), List.map_cons,
        List.nodup_cons, List.nodup_cons, ih]
      have hmem : a.name ∈ (as.filter (isMatched params)).map (·.name) ↔ i ∈ as.filterMap (named? params) := by
        rw [List.mem_map, List.mem_filterMap]
        constructor
        · rintro ⟨b, hb, hname⟩
          exact ⟨b, (List.mem_filter.1 hb).1, (named?_eq_iff ha).2 hname⟩
        · rintro ⟨b, hb, hbi⟩
          refine ⟨b, List.mem_filter.2 ⟨hb, ?_⟩, (named?_eq_iff ha).1 hbi⟩
          rw [isMatched_eq, hbi]
          rfl
      rw [hmem]

theorem areNamable_iff (params : List Param) (args : List (Arg PromiseId)) :
    AreNamable params (params.map fun _ => none) args ↔ ((args.filter (isMatched params)).map (·.name)).Nodup := by
  rw [nodup_map_name_iff]
  refine ⟨And.left, fun h => ⟨h, fun i hi => ?_⟩⟩
  obtain ⟨a, _, ha⟩ := List.mem_filterMap.1 hi
  rw [List.getElem?_map, List.getElem?_eq_getElem (lt_length_of_named? ha)]
  rfl

/-- The slots that are free after the first pass. -/
theorem freeBelow_eq_freeSlots (h : FilledByName params (params.map fun _ => none) args slots rest) :
    freeBelow (boundary params) slots = freeSlots params args := by
  refine List.filter_congr fun i hi => ?_
  have hlt : i < params.length := Nat.lt_of_lt_of_le (List.mem_range.1 hi) (boundary_le params)
  rw [Bool.eq_iff_iff, beq_iff_eq, List.all_eq_true]
  simp only [bne_iff_ne]
  constructor
  · intro hnone a ha hai
    rw [h.filled a ha i hai] at hnone
    cases hnone
  · intro hfree
    rw [h.kept i hfree, List.getElem?_map, List.getElem?_eq_getElem hlt]
    rfl

/-- Arguments without a name are never matched by name. -/
theorem filter_unnamed (params : List Param) (args : List (Arg PromiseId)) :
    (args.filter fun a => !isMatched params a).filter (·.name.isNone) = args.filter (·.name.isNone) := by
  rw [List.filter_filter]
  refine List.filter_congr fun a _ => ?_
  cases ha : a.name.isNone with
  | false => rfl
  | true => simp [not_isMatched_of_unnamed ha]

theorem matched_of_filled {m : Matching} (hname : FilledByName params (params.map fun _ => none) args slots rest)
    (hplace : FilledByPlace (freeSlots params args) slots rest m) : Matched params args m where
  length := by rw [hplace.length, hname.length, List.length_map]
  named a ha i hi := by
    have hnot : i ∉ freeSlots params args := fun hfree => by
      have hall := List.all_eq_true.1 (List.mem_filter.1 hfree).2 a ha
      simp [hi] at hall
    rw [hplace.kept i hnot, hname.filled a ha i hi]
  placed k i hk := by rw [hplace.placed k i hk, hname.left, filter_unnamed]
  others i hi hnot hother := by
    rw [hplace.kept i hnot, hname.kept i hother, List.getElem?_map, List.getElem?_eq_getElem hi]
    rfl
  tail := by rw [hplace.tail, hname.left]
  conserved := by
    have hnone : (params.map fun _ => (none : Option PromiseId)).filterMap id = [] := by
      rw [List.filterMap_map]
      exact List.filterMap_eq_nil_iff.2 fun _ _ => rfl
    have hperm := hplace.conserved.trans hname.conserved
    rwa [hnone] at hperm

/-- What is in a slot was an argument. -/
theorem Matched.exists_of_slot {m : Matching} (h : Matched params args m) (hslot : m.slots[i]? = some (some p)) :
    ∃ a ∈ args, a.value = p := by
  have hmem : p ∈ m.slots.filterMap id := List.mem_filterMap.2 ⟨some p, List.mem_of_getElem? hslot, rfl⟩
  exact List.mem_map.1 (h.conserved.subset (List.mem_append_left _ hmem))

theorem Matched.mem_of_tail {m : Matching} (h : Matched params args m) (ha : a ∈ m.tail) : a ∈ args := by
  rw [h.tail] at ha
  exact (List.mem_filter.1 ((dropUnnamed_sublist _ _).subset ha)).1

/-- Only slots before the tail are filled by place. -/
theorem boundary_le_of_tail {q : Param} (hq : params[i]? = some q) (hname : q.name = tailName) :
    boundary params ≤ i := by
  obtain ⟨j, hj⟩ := Option.isSome_iff_exists.1 (isSome_tailPlace?.2 ⟨q, List.mem_of_getElem? hq, hname⟩)
  rw [boundary, hj, Option.getD_some]
  obtain ⟨_, _, hbefore⟩ := List.findIdx?_eq_some_iff_getElem.1 hj
  obtain ⟨_, rfl⟩ := List.getElem?_eq_some_iff.1 hq
  refine Nat.le_of_not_lt fun hij => ?_
  have hnot := hbefore i hij
  simp [hname] at hnot

/-- The tail is given nothing itself. -/
theorem Matched.slot_of_tail {m : Matching} {q : Param} (h : Matched params args m) (hq : params[i]? = some q)
    (hname : q.name = tailName) : m.slots[i]? = some none := by
  refine h.others i (List.getElem?_eq_some_iff.1 hq).1 (fun hfree => ?_) fun a _ hai => ?_
  · have hlt := List.mem_range.1 (List.mem_filter.1 hfree).1
    exact absurd (boundary_le_of_tail hq hname) (Nat.not_le_of_lt hlt)
  · obtain ⟨p, hp, _, htail, _⟩ := named?_eq_some_iff.1 hai
    rw [hq] at hp
    cases hp
    exact htail hname

theorem Matched.tail_sublist {m : Matching} (h : Matched params args m) : m.tail.Sublist args := by
  rw [h.tail]
  exact (dropUnnamed_sublist _ _).trans List.filter_sublist

/-- There is only one way to match. -/
theorem Matched.unique {m m' : Matching} (h : Matched params args m) (h' : Matched params args m') : m = m' := by
  have hslots : m.slots = m'.slots := by
    refine List.ext_getElem? fun i => ?_
    by_cases hi : i < params.length
    · by_cases hfree : i ∈ freeSlots params args
      · obtain ⟨k, hk⟩ := List.mem_iff_getElem?.1 hfree
        rw [h.placed k i hk, h'.placed k i hk]
      · by_cases hnamed : ∃ a ∈ args, named? params a = some i
        · obtain ⟨a, ha, hai⟩ := hnamed
          rw [h.named a ha i hai, h'.named a ha i hai]
        · have hother : ∀ a ∈ args, named? params a ≠ some i := fun a ha hai => hnamed ⟨a, ha, hai⟩
          rw [h.others i hi hfree hother, h'.others i hi hfree hother]
    · have hi := Nat.le_of_not_lt hi
      rw [List.getElem?_eq_none (h.length ▸ hi), List.getElem?_eq_none (h'.length ▸ hi)]
  cases m
  cases m'
  rw [Matching.mk.injEq]
  exact ⟨hslots, h.tail.trans h'.tail.symm⟩

/-- Matching succeeds just if it can, and is a mismatch otherwise. -/
theorem ofArgs_cases (exprOf : PromiseId → Node) (params : List Param) (args : List (Arg PromiseId)) :
    (Matchable params args ∧ ∃ m, ofArgs exprOf params args = .ok m ∧ Matched params args m) ∨
    (¬ Matchable params args ∧ ∃ mismatch, ofArgs exprOf params args = .error mismatch) := by
  have hlength : (params.map fun _ => (none : Option PromiseId)).length = params.length := List.length_map _
  rcases byName_cases args hlength with ⟨hnamable, slots, rest, hok, hname⟩ | ⟨hnamable, mismatch, herror⟩
  · have hroom : HaveRoom (tailPlace? params).isSome (freeSlots params args) rest ↔ Matchable params args := by
      rw [HaveRoom, isSome_tailPlace?, hname.left]
      refine ⟨fun h => ⟨(areNamable_iff params args).1 hnamable, h.imp_right (And.imp_left fun h a ha hno => ?_)⟩,
        fun h => h.room.imp_right (And.imp_left fun h a ha => ?_)⟩
      · exact h a (List.mem_filter.2 ⟨ha, by rw [hno]; rfl⟩)
      · obtain ⟨ha, hno⟩ := List.mem_filter.1 ha
        exact h a ha (by simpa using hno)
    have hofArgs : ofArgs exprOf params args =
        byPlace exprOf (boundary params) (tailPlace? params).isSome slots rest := by
      rw [ofArgs, hok]
      rfl
    have hfree := freeBelow_eq_freeSlots hname
    rw [hofArgs, ← hroom, ← hfree]
    refine (byPlace_cases exprOf (boundary params) _ slots rest).imp_left fun ⟨h, m, hok, hplace⟩ =>
      ⟨h, m, hok, matched_of_filled hname (hfree ▸ hplace)⟩
  · refine .inr ⟨fun h => hnamable ((areNamable_iff params args).2 h.once), mismatch, ?_⟩
    rw [ofArgs, herror]
    rfl

theorem ofArgs_eq_ok_iff {exprOf : PromiseId → Node} {m : Matching} :
    ofArgs exprOf params args = .ok m ↔ Matchable params args ∧ Matched params args m := by
  rcases ofArgs_cases exprOf params args with ⟨h, m', hok, hm'⟩ | ⟨h, mismatch, herror⟩
  · rw [hok, Except.ok.injEq]
    exact ⟨fun hm => hm ▸ ⟨h, hm'⟩, fun hm => hm'.unique hm.2⟩
  · rw [herror]
    exact ⟨nofun, fun hm => absurd hm.1 h⟩

end Quotation.Matching
