import Quotation.Proofs.Template.Visit
/-!
# Places of a template

`Leads` follows a path from the root of a template down to what stands at its end: a
template, a splice, or the name of a definition. Every visit of a template is one of
a place that its path leads to (`fits_of_mem_visits`), every place is visited
(`visits_infix_of_leads`), and the visits come in the reading order of their paths
(`visits_inOrder`).
-/

namespace Quotation

/-! ## Paths in reading order -/

/-- The head is first, and the name of an argument is before the argument. -/
def Step.rank : Step → Nat
  | head => 0
  | name i => 2 * i + 1
  | arg i => 2 * i + 2

namespace Path

/-- The first path leads to a place that is done with when expansion comes to the second
one. Of two places one of which is below the other, neither is left of the other. -/
inductive LeftOf : Path → Path → Prop
  | fork {x y : Step} {p q : Path} : x.rank < y.rank → LeftOf (x :: p) (y :: q)
  | under {x : Step} {p q : Path} : LeftOf p q → LeftOf (x :: p) (x :: q)

theorem leftOf_append_iff (p : Path) {q r : Path} : LeftOf (p ++ q) (p ++ r) ↔ LeftOf q r := by
  induction p with
  | nil => rfl
  | cons x p ih =>
    rw [List.cons_append, List.cons_append, ← ih]
    constructor
    · intro h
      cases h with
      | fork hlt => exact absurd hlt (Nat.lt_irrefl _)
      | under h => exact h
    · exact .under

theorem not_leftOf_nil (p : Path) : ¬ LeftOf p [] := nofun

theorem not_nil_leftOf (p : Path) : ¬ LeftOf [] p := nofun

theorem not_append_leftOf (p q : Path) : ¬ LeftOf (p ++ q) p := by
  have h := not_leftOf_nil q
  rwa [← leftOf_append_iff p, List.append_nil] at h

theorem not_leftOf_append (p q : Path) : ¬ LeftOf p (p ++ q) := by
  have h := not_nil_leftOf q
  rwa [← leftOf_append_iff p, List.append_nil] at h

theorem not_leftOf_self (p : Path) : ¬ LeftOf p p := by
  have h := not_append_leftOf p []
  rwa [List.append_nil] at h

theorem not_leftOf_of_rank_lt {p q r : Path} {x y : Step} (h : x.rank < y.rank) :
    ¬ LeftOf (p ++ y :: q) (p ++ x :: r) := by
  rw [leftOf_append_iff]
  intro hb
  cases hb with
  | fork hlt => omega
  | under => omega

/-- All that is below a place is left of what the place is left of. -/
theorem LeftOf.append {p q : Path} (h : LeftOf p q) (r : Path) : LeftOf (p ++ r) q := by
  induction h with
  | fork hlt => exact .fork hlt
  | under _ ih => exact .under ih

end Path

/-! ## What stands at a place -/

/-- What a path leads to. -/
inductive Place where
  | template (t : Template)
  | splice (source : Node)
  | name (source : Node)

namespace Template

def parts : Template → List (Part Template)
  | call _ args => args
  | pairlist args => args
  | _ => []

/-- What stands at the end of a path from the root. -/
inductive Leads : Template → Path → Place → Prop
  | here {t} : Leads t [] (.template t)
  | head {head args path place} : Leads head path place → Leads (.call head args) (.head :: path) place
  | arg {t i name value path place} : t.parts[i]? = some (.arg name value) → Leads value path place →
      Leads t (.arg i :: path) place
  | value {t i source value path place} : t.parts[i]? = some (.define source value) → Leads value path place →
      Leads t (.arg i :: path) place
  | splice {t i source} : t.parts[i]? = some (.splice source) → Leads t [.arg i] (.splice source)
  | name {t i source value} : t.parts[i]? = some (.define source value) → Leads t [.name i] (.name source)

/-- The path leads to the head of a call, and there are holes in the head. -/
def HeadAt (t : Template) (path : Path) : Prop :=
  ∃ q head args, path = q ++ [.head] ∧ t.Leads q (.template (.call head args)) ∧ head.isPlain = false

/-- The path leads to the name of a definition. -/
theorem Leads.of_name {t : Template} {path : Path} {source : Node} (h : t.Leads path (.name source)) :
    ∃ q i u value, path = q ++ [.name i] ∧ t.Leads q (.template u) ∧ u.parts[i]? = some (.define source value) := by
  generalize hplace : Place.name source = place at h
  induction h with
  | here => cases hplace
  | head _ ih =>
    obtain ⟨q, i, u, value, rfl, hq, hi⟩ := ih hplace
    exact ⟨_, i, u, value, rfl, .head hq, hi⟩
  | arg hp _ ih =>
    obtain ⟨q, i, u, value, rfl, hq, hi⟩ := ih hplace
    exact ⟨_, i, u, value, rfl, .arg hp hq, hi⟩
  | value hp _ ih =>
    obtain ⟨q, i, u, value, rfl, hq, hi⟩ := ih hplace
    exact ⟨_, i, u, value, rfl, .value hp hq, hi⟩
  | splice => cases hplace
  | name hp =>
    cases hplace
    exact ⟨[], _, _, _, rfl, .here, hp⟩

/-- One step leads from a template to another one. -/
def Below (x : Step) (t u : Template) : Prop := ∀ path place, u.Leads path place → t.Leads (x :: path) place

theorem HeadAt.of_below {x : Step} {t u : Template} {path : Path} (hb : Below x t u) (h : u.HeadAt path) :
    t.HeadAt (x :: path) := by
  obtain ⟨q, head, args, rfl, hq, hhead⟩ := h
  exact ⟨x :: q, head, args, rfl, hb _ _ hq, hhead⟩

end Template

/-! ## Visits are of places -/

namespace Visit

/-- The visit is of what stands at the end of the path in a template, which is below so
many calls and lists and may itself be the head of a call. -/
def Fits (t : Template) (depth : Nat) (atHead : Bool) (path : Path) : Visit → Prop
  | enter _ d => (∃ u, t.Leads path (.template u)) ∧ d = depth + path.length
  | unquote _ source isHead => t.Leads path (.template (.single source)) ∧
      (isHead = true → path = [] ∧ atHead = true ∨ t.HeadAt path)
  | splice _ source => t.Leads path (.splice source)
  | name _ source => t.Leads path (.name source)
  | listHead _ => (path = [] ∧ atHead = true ∧ t.isPlain = false) ∨ t.HeadAt path

theorem Fits.of_below {x : Step} {t u : Template} {depth : Nat} {atHead : Bool} {path : Path} {v : Visit}
    (hb : Template.Below x t u) (h : v.Fits u (depth + 1) false path) : v.Fits t depth atHead (x :: path) := by
  cases v with
  | enter _ _ =>
    obtain ⟨⟨w, hw⟩, rfl⟩ := h
    exact ⟨⟨w, hb _ _ hw⟩, by rw [List.length_cons]; omega⟩
  | unquote _ source isHead =>
    refine ⟨hb _ _ h.1, fun hi => ?_⟩
    rcases h.2 hi with ⟨_, hfalse⟩ | hhead
    · cases hfalse
    · exact .inr (hhead.of_below hb)
  | splice _ source => exact hb _ _ h
  | name _ source => exact hb _ _ h
  | listHead _ =>
    rcases h with ⟨_, hfalse, _⟩ | hhead
    · cases hfalse
    · exact .inr (hhead.of_below hb)

theorem Fits.of_head {head : Template} {args : List (Part Template)} {depth : Nat} {atHead : Bool} {path : Path}
    {v : Visit} (h : v.Fits head (depth + 1) true path) : v.Fits (.call head args) depth atHead (.head :: path) := by
  have hb : Template.Below .head (.call head args) head := fun _ _ => .head
  have here (hp : head.isPlain = false) : (Template.call head args).HeadAt [.head] :=
    ⟨[], head, args, rfl, .here, hp⟩
  cases v with
  | enter _ _ =>
    obtain ⟨⟨w, hw⟩, rfl⟩ := h
    exact ⟨⟨w, hb _ _ hw⟩, by rw [List.length_cons]; omega⟩
  | unquote _ source isHead =>
    refine ⟨hb _ _ h.1, fun hi => ?_⟩
    rcases h.2 hi with ⟨rfl, _⟩ | hhead
    · cases h.1
      exact .inr (here rfl)
    · exact .inr (hhead.of_below hb)
  | splice _ source => exact hb _ _ h
  | name _ source => exact hb _ _ h
  | listHead _ =>
    rcases h with ⟨rfl, _, hp⟩ | hhead
    · exact .inr (here hp)
    · exact .inr (hhead.of_below hb)

end Visit

namespace Template

theorem parts_of_drop {t : Template} {i : Nat} {part : Part Template} {rest : List (Part Template)}
    (h : t.parts.drop i = part :: rest) : t.parts[i]? = some part ∧ t.parts.drop (i + 1) = rest := by
  constructor
  · have := congrArg (·[0]?) h
    simpa using this
  · rw [← List.drop_drop, h, List.drop_one, List.tail_cons]

mutual
theorem fits_of_mem_visits (path : Path) (depth : Nat) (atHead : Bool) : ∀ (t : Template) (v : Visit),
    v ∈ t.visits path depth atHead → ∃ p, v.path = path ++ p ∧ v.Fits t depth atHead p
  | .node n, v, h => by
    simp only [visits, List.mem_singleton] at h
    subst h
    exact ⟨[], by simp [Visit.path], ⟨_, .here⟩, rfl⟩
  | .single source, v, h => by
    simp only [visits, List.mem_cons, List.not_mem_nil, or_false] at h
    rcases h with rfl | rfl
    · exact ⟨[], by simp [Visit.path], ⟨_, .here⟩, rfl⟩
    · exact ⟨[], by simp [Visit.path], .here, fun hi => .inl ⟨rfl, hi⟩⟩
  | .call head args, v, h => by
    simp only [visits, List.mem_cons, List.mem_append] at h
    rcases h with rfl | hhead | hargs
    · exact ⟨[], by simp [Visit.path], ⟨_, .here⟩, rfl⟩
    · obtain ⟨p, hp, hfits⟩ := fits_of_mem_visits _ _ _ head v hhead
      exact ⟨.head :: p, by simpa using hp, hfits.of_head⟩
    · obtain ⟨x, p, hp, _, hfits⟩ := fits_of_mem_partVisits path depth 0 (.call head args) atHead args v rfl hargs
      exact ⟨x :: p, hp, hfits⟩
  | .pairlist args, v, h => by
    simp only [visits, List.mem_cons, List.mem_append] at h
    rcases h with rfl | hargs | hlast
    · exact ⟨[], by simp [Visit.path], ⟨_, .here⟩, rfl⟩
    · obtain ⟨x, p, hp, _, hfits⟩ := fits_of_mem_partVisits path depth 0 (.pairlist args) atHead args v rfl hargs
      exact ⟨x :: p, hp, hfits⟩
    · split at hlast
      · rename_i hhead
        rw [List.mem_singleton] at hlast
        subst hlast
        exact ⟨[], by simp [Visit.path], .inl ⟨rfl, hhead, rfl⟩⟩
      · cases hlast

theorem fits_of_mem_partVisits (path : Path) (depth i : Nat) (t : Template) (atHead : Bool) :
    ∀ (parts : List (Part Template)) (v : Visit), t.parts.drop i = parts → v ∈ partVisits path (depth + 1) i parts →
      ∃ x p, v.path = path ++ x :: p ∧ 2 * i < x.rank ∧ v.Fits t depth atHead (x :: p)
  | [], v, _, h => by
    cases h
  | .arg label value :: rest, v, hi, h => by
    obtain ⟨hpart, hrest⟩ := parts_of_drop hi
    simp only [partVisits, List.mem_append] at h
    rcases h with hvalue | h
    · obtain ⟨p, hp, hfits⟩ := fits_of_mem_visits _ _ _ value v hvalue
      exact ⟨.arg i, p, by simpa using hp, by simp [Step.rank], hfits.of_below fun _ _ => .arg hpart⟩
    · obtain ⟨x, p, hp, hx, hfits⟩ := fits_of_mem_partVisits path depth (i + 1) t atHead rest v hrest h
      exact ⟨x, p, hp, by omega, hfits⟩
  | .splice source :: rest, v, hi, h => by
    obtain ⟨hpart, hrest⟩ := parts_of_drop hi
    simp only [partVisits, List.mem_cons] at h
    rcases h with rfl | h
    · exact ⟨.arg i, [], rfl, by simp [Step.rank], .splice hpart⟩
    · obtain ⟨x, p, hp, hx, hfits⟩ := fits_of_mem_partVisits path depth (i + 1) t atHead rest v hrest h
      exact ⟨x, p, hp, by omega, hfits⟩
  | .define nameSource value :: rest, v, hi, h => by
    obtain ⟨hpart, hrest⟩ := parts_of_drop hi
    simp only [partVisits, List.mem_cons, List.mem_append] at h
    rcases h with rfl | hvalue | h
    · exact ⟨.name i, [], rfl, by simp [Step.rank], .name hpart⟩
    · obtain ⟨p, hp, hfits⟩ := fits_of_mem_visits _ _ _ value v hvalue
      exact ⟨.arg i, p, by simpa using hp, by simp [Step.rank], hfits.of_below fun _ _ => .value hpart⟩
    · obtain ⟨x, p, hp, hx, hfits⟩ := fits_of_mem_partVisits path depth (i + 1) t atHead rest v hrest h
      exact ⟨x, p, hp, by omega, hfits⟩
end

/-! ## Places are visited -/

/-- The visits of an entry of a list. -/
def visitsOf (path : Path) (depth i : Nat) : Part Template → List Visit
  | .arg _ value => visits (path ++ [.arg i]) depth false value
  | .splice source => [.splice (path ++ [.arg i]) source]
  | .define nameSource value =>
    .name (path ++ [.name i]) nameSource :: visits (path ++ [.arg i]) depth false value

theorem partVisits_cons (path : Path) (depth i : Nat) (part : Part Template) (rest : List (Part Template)) :
    partVisits path depth i (part :: rest) = visitsOf path depth i part ++ partVisits path depth (i + 1) rest := by
  cases part <;> simp [partVisits, visitsOf]

theorem visitsOf_infix_partVisits {path : Path} {depth i k : Nat} {part : Part Template}
    {parts : List (Part Template)} (h : parts[k]? = some part) :
    visitsOf path depth (i + k) part <:+: partVisits path depth i parts := by
  induction parts generalizing i k with
  | nil => cases h
  | cons first rest ih =>
    rw [partVisits_cons]
    cases k with
    | zero =>
      cases h
      exact (List.prefix_append _ _).isInfix
    | succ k =>
      rw [← Nat.succ_add_eq_add_succ]
      exact (ih h).trans (List.suffix_append _ _).isInfix

theorem visitsOf_infix_visits {path : Path} {depth i : Nat} {atHead : Bool} {part : Part Template} {t : Template}
    (h : t.parts[i]? = some part) : visitsOf path (depth + 1) i part <:+: t.visits path depth atHead := by
  have hparts : visitsOf path (depth + 1) i part <:+: partVisits path (depth + 1) 0 t.parts := by
    simpa using visitsOf_infix_partVisits (i := 0) h
  refine hparts.trans ?_
  cases t with
  | node _ => cases h
  | single _ => cases h
  | call head args => exact (List.suffix_append (Visit.enter path depth :: _) _).isInfix
  | pairlist args => exact ((List.prefix_append _ _).isInfix).trans (List.suffix_cons _ _).isInfix

end Template

/-- What expansion does at a place. -/
def Place.visits (path : Path) (depth : Nat) (atHead : Bool) : Place → List Visit
  | template t => t.visits path depth atHead
  | splice source => [.splice path source]
  | name source => [.name path source]

theorem Place.visits_cons (place : Place) (path p : Path) (x : Step) (depth : Nat) (atHead : Bool) :
    place.visits (path ++ x :: p) (depth + (x :: p).length) atHead =
      place.visits (path ++ [x] ++ p) (depth + 1 + p.length) atHead := by
  have hpath : path ++ x :: p = path ++ [x] ++ p := by simp
  have hdepth : depth + (x :: p).length = depth + 1 + p.length := by
    rw [List.length_cons]
    omega
  rw [hpath, hdepth]

theorem visits_infix_of_leads {t : Template} {p : Path} {place : Place} (h : t.Leads p place) (path : Path)
    (depth : Nat) (atHead : Bool) :
    ∃ isHead, place.visits (path ++ p) (depth + p.length) isHead <:+: t.visits path depth atHead := by
  induction h generalizing path depth atHead with
  | here => exact ⟨atHead, by simp [Place.visits]⟩
  | @head head args p place _ ih =>
    obtain ⟨isHead, hi⟩ := ih (path ++ [.head]) (depth + 1) true
    rw [← Place.visits_cons] at hi
    exact ⟨isHead, hi.trans ⟨[.enter path depth], _, rfl⟩⟩
  | @arg t i _ _ p place hpart _ ih =>
    obtain ⟨isHead, hi⟩ := ih (path ++ [.arg i]) (depth + 1) false
    rw [← Place.visits_cons] at hi
    exact ⟨isHead, hi.trans (Template.visitsOf_infix_visits hpart)⟩
  | @value t i _ _ p place hpart _ ih =>
    obtain ⟨isHead, hi⟩ := ih (path ++ [.arg i]) (depth + 1) false
    rw [← Place.visits_cons] at hi
    exact ⟨isHead, (hi.trans (List.suffix_cons _ _).isInfix).trans (Template.visitsOf_infix_visits hpart)⟩
  | splice hpart => exact ⟨false, Template.visitsOf_infix_visits hpart⟩
  | name hpart =>
    refine ⟨false, List.IsInfix.trans ?_ (Template.visitsOf_infix_visits hpart)⟩
    exact (List.prefix_append [_] _).isInfix

/-! ## Visits are in reading order -/

/-- The second visit is not of a place left of that of the first. -/
def Visit.InOrder (v w : Visit) : Prop := ¬ w.path.LeftOf v.path

namespace Template

theorem path_of_mem_visits {path : Path} {depth : Nat} {atHead : Bool} {t : Template} {v : Visit}
    (h : v ∈ t.visits path depth atHead) : ∃ p, v.path = path ++ p := by
  obtain ⟨p, hp, _⟩ := fits_of_mem_visits path depth atHead t v h
  exact ⟨p, hp⟩

theorem path_of_mem_visitsOf {path : Path} {depth i : Nat} {part : Part Template} {v : Visit}
    (h : v ∈ visitsOf path depth i part) :
    ∃ x p, v.path = path ++ x :: p ∧ 2 * i < x.rank ∧ x.rank ≤ 2 * i + 2 := by
  have hvalue (value : Template) (hv : v ∈ value.visits (path ++ [.arg i]) depth false) :
      ∃ x p, v.path = path ++ x :: p ∧ 2 * i < x.rank ∧ x.rank ≤ 2 * i + 2 := by
    obtain ⟨p, hp⟩ := path_of_mem_visits hv
    exact ⟨.arg i, p, by simpa using hp, by simp [Step.rank], Nat.le_refl _⟩
  cases part with
  | arg _ value => exact hvalue value h
  | splice source =>
    cases List.mem_singleton.1 h
    exact ⟨.arg i, [], rfl, by simp [Step.rank], Nat.le_refl _⟩
  | define nameSource value =>
    rcases List.mem_cons.1 h with rfl | h
    · exact ⟨.name i, [], rfl, by simp [Step.rank], by simp [Step.rank]⟩
    · exact hvalue value h

theorem path_of_mem_partVisits {path : Path} {depth i : Nat} {parts : List (Part Template)} {v : Visit}
    (h : v ∈ partVisits path depth i parts) : ∃ x p, v.path = path ++ x :: p ∧ 2 * i < x.rank := by
  induction parts generalizing i with
  | nil => cases h
  | cons part rest ih =>
    rw [partVisits_cons] at h
    rcases List.mem_append.1 h with h | h
    · obtain ⟨x, p, hp, hx, _⟩ := path_of_mem_visitsOf h
      exact ⟨x, p, hp, hx⟩
    · obtain ⟨x, p, hp, hx⟩ := ih h
      exact ⟨x, p, hp, by omega⟩

theorem enter_inOrder {path : Path} {depth : Nat} {v : Visit} (h : ∃ p, v.path = path ++ p) :
    Visit.InOrder (.enter path depth) v := by
  obtain ⟨p, hp⟩ := h
  unfold Visit.InOrder
  rw [hp]
  exact Path.not_append_leftOf path p

theorem inOrder_of_rank_lt {path p q : Path} {x y : Step} {v w : Visit} (hv : v.path = path ++ x :: p)
    (hw : w.path = path ++ y :: q) (h : x.rank < y.rank) : v.InOrder w := by
  unfold Visit.InOrder
  rw [hv, hw]
  exact Path.not_leftOf_of_rank_lt h

theorem partVisits_cons_inOrder {path : Path} {depth i : Nat} {part : Part Template} {rest : List (Part Template)}
    (hpart : (visitsOf path depth i part).Pairwise Visit.InOrder)
    (hrest : (partVisits path depth (i + 1) rest).Pairwise Visit.InOrder) :
    (partVisits path depth i (part :: rest)).Pairwise Visit.InOrder := by
  rw [partVisits_cons, List.pairwise_append]
  refine ⟨hpart, hrest, fun v hv w hw => ?_⟩
  obtain ⟨x, p, hp, _, hx⟩ := path_of_mem_visitsOf hv
  obtain ⟨y, q, hq, hy⟩ := path_of_mem_partVisits hw
  exact inOrder_of_rank_lt hp hq (by omega)

mutual
theorem visits_inOrder (path : Path) (depth : Nat) (atHead : Bool) : ∀ t : Template,
    (t.visits path depth atHead).Pairwise Visit.InOrder
  | .node _ => List.pairwise_singleton _ _
  | .single source => by
    rw [visits, List.pairwise_pair]
    exact enter_inOrder ⟨[], (List.append_nil path).symm⟩
  | .call head args => by
    rw [visits, List.pairwise_cons, List.pairwise_append]
    refine ⟨fun v hv => enter_inOrder ?_, visits_inOrder _ _ _ head, partVisits_inOrder _ _ _ args, fun v hv w hw => ?_⟩
    · rcases List.mem_append.1 hv with hv | hv
      · obtain ⟨p, hp⟩ := path_of_mem_visits hv
        exact ⟨.head :: p, by simpa using hp⟩
      · obtain ⟨x, p, hp, _⟩ := path_of_mem_partVisits hv
        exact ⟨x :: p, hp⟩
    · -- what is in the head is left of every argument
      obtain ⟨p, hp⟩ := path_of_mem_visits hv
      obtain ⟨y, q, hq, hy⟩ := path_of_mem_partVisits hw
      exact inOrder_of_rank_lt (x := .head) (by simpa using hp) hq hy
  | .pairlist args => by
    rw [visits, List.pairwise_cons, List.pairwise_append]
    refine ⟨fun v hv => enter_inOrder ?_, partVisits_inOrder _ _ _ args, ?_, fun v hv w hw => ?_⟩
    · rcases List.mem_append.1 hv with hv | hv
      · obtain ⟨x, p, hp, _⟩ := path_of_mem_partVisits hv
        exact ⟨x :: p, hp⟩
      · split at hv
        · cases List.mem_singleton.1 hv
          exact ⟨[], (List.append_nil path).symm⟩
        · cases hv
    · split
      · exact List.pairwise_singleton _ _
      · exact .nil
    · obtain ⟨x, p, hp, _⟩ := path_of_mem_partVisits hv
      split at hw
      · cases List.mem_singleton.1 hw
        unfold Visit.InOrder
        rw [hp]
        exact Path.not_leftOf_append path _
      · cases hw

theorem partVisits_inOrder (path : Path) (depth i : Nat) : ∀ parts : List (Part Template),
    (partVisits path depth i parts).Pairwise Visit.InOrder
  | [] => .nil
  | .arg _ value :: rest =>
    partVisits_cons_inOrder (visits_inOrder _ _ _ value) (partVisits_inOrder _ _ _ rest)
  | .splice source :: rest =>
    partVisits_cons_inOrder (List.pairwise_singleton _ _) (partVisits_inOrder _ _ _ rest)
  | .define nameSource value :: rest => by
    refine partVisits_cons_inOrder (List.pairwise_cons.2 ⟨fun v hv => ?_, visits_inOrder _ _ _ value⟩)
      (partVisits_inOrder _ _ _ rest)
    obtain ⟨p, hp⟩ := path_of_mem_visits hv
    have hname : (Visit.name (path ++ [.name i]) nameSource).path = path ++ [.name i] := rfl
    exact inOrder_of_rank_lt hname (y := .arg i) (by simpa using hp) (by simp [Step.rank])
end

end Template

theorem path_of_mem_placeVisits {place : Place} {path : Path} {depth : Nat} {atHead : Bool} {v : Visit}
    (h : v ∈ place.visits path depth atHead) : ∃ p, v.path = path ++ p := by
  cases place with
  | template t => exact Template.path_of_mem_visits h
  | splice source =>
    cases List.mem_singleton.1 h
    exact ⟨[], (List.append_nil path).symm⟩
  | name source =>
    cases List.mem_singleton.1 h
    exact ⟨[], (List.append_nil path).symm⟩

theorem placeVisits_ne_nil (place : Place) (path : Path) (depth : Nat) (atHead : Bool) :
    place.visits path depth atHead ≠ [] := by
  cases place with
  | template t => cases t <;> simp [Place.visits, Template.visits]
  | splice _ => simp [Place.visits]
  | name _ => simp [Place.visits]

/-- Where the visits are in order, those left of one of them are before it. -/
theorem infix_before {vs before after : List Visit} {v : Visit}
    (horder : (before ++ v :: after).Pairwise Visit.InOrder) (hvs : vs <:+: before ++ v :: after) (hne : vs ≠ [])
    (hleft : ∀ w ∈ vs, w.path.LeftOf v.path) : vs <:+: before := by
  obtain ⟨pre, post, h⟩ := hvs
  -- Otherwise the last of them is the visit itself or comes after it, and is not left of it.
  rcases List.append_eq_append_iff.1 h with ⟨mid, hbefore, _⟩ | ⟨mid, hmid, hafter⟩
  · exact ⟨pre, mid, hbefore.symm⟩
  · cases mid with
    | nil => exact ⟨pre, [], by simpa using hmid⟩
    | cons v' mid =>
      cases hafter
      rcases List.eq_nil_or_concat vs with rfl | ⟨init, w, rfl⟩
      · exact absurd rfl hne
      · have hw : w ∈ v :: mid := by
          have hlast := congrArg List.getLast? hmid
          rw [List.concat_eq_append, ← List.append_assoc, List.getLast?_concat, List.getLast?_append,
            List.getLast?_cons, Option.some_or, ← List.getLast?_cons] at hlast
          exact List.mem_of_getLast? hlast.symm
        have hwleft := hleft w (by simp)
        obtain ⟨_, hafter, _⟩ := List.pairwise_append.1 horder
        rcases List.mem_cons.1 hw with rfl | hw
        · exact absurd hwleft (Path.not_leftOf_self _)
        · exact absurd hwleft ((List.pairwise_cons.1 hafter).1 w (List.mem_append_left _ hw))

/-- All that is done at a place left of a visit is done before the visit. -/
theorem visits_infix_before {t : Template} {before after : List Visit} {v : Visit}
    (ht : t.visits [] 0 false = before ++ v :: after) {q : Path} {place : Place} (hq : t.Leads q place)
    (h : q.LeftOf v.path) : ∃ atHead, place.visits q q.length atHead <:+: before := by
  obtain ⟨atHead, hi⟩ := visits_infix_of_leads hq [] 0 false
  rw [List.nil_append, Nat.zero_add, ht] at hi
  refine ⟨atHead, infix_before (ht ▸ Template.visits_inOrder [] 0 false t) hi (placeVisits_ne_nil _ _ _ _) ?_⟩
  intro w hw
  obtain ⟨p, hp⟩ := path_of_mem_placeVisits hw
  exact hp ▸ h.append p

end Quotation
