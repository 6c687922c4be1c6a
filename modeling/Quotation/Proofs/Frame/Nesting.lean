import Quotation.Proofs.Frame.Scoping
/-!
# The way outwards

In the states that a host can bring about frames nest, so the way from a frame outwards ends
(`Built.isScoped`, `isWay_iff`). Names and calling contexts are sought along it, and what is found is
what the nearest frame has (`Seeks`, `Reaches`). Binding a name in a frame shows from the frames that
reach it for that name, and changes nothing else (`names_resolve_to_nearest`).
-/

namespace Quotation

/-! ## The states of a host -/

/-- The number has been given out to a frame. -/
abbrev State.HasFrame (s : State) (id : FrameId) : Prop := id < s.store.frames.size

/-- States that a host brings about, also while something is evaluated: it makes frames, promises,
contexts and functions, binds names, marks and fills promises, evaluates, forces, calls and expands.
All that it refers to is there. -/
inductive Built : State → Prop
  | start : Built .empty
  | base {s s' r} : Built s → newBase.Ends s r s' → Built s'
  | root {s} : Built s → Built { s with store := (s.store.newFrame none none).2 }
  | child {s parent} : Built s → s.HasFrame parent →
      Built { s with store := (s.store.newFrame (some parent) none).2 }
  | called {s parent context} : Built s → s.HasFrame parent → s.HasFrame context.env → Built (s.calling parent context)
  | context {s context} : Built s → s.HasFrame context.env →
      Built { s with store := (s.store.newContext context).2 }
  | promise {s env} (expr : Node) : Built s → s.HasFrame env →
      Built { s with store := (s.store.newPromise expr env).2 }
  | function {s} : Built s → Built { s with store := s.store.newFunction.2 }
  | bind {s env b} (name : String) : Built s → s.HasFrame env → (∀ v, b = .value v → v.Within s.store.frames.size) →
      Built { s with store := s.store.bind env name b }
  | marked {s id} (forcing : Bool) : Built s → Built (s.mark id forcing)
  | filled {s id v} : Built s → v.Within s.store.frames.size → Built (s.fill id v)
  | eval {s s' depth x env r} : Built s → s.HasFrame env → (eval depth x env).Ends s r s' → Built s'
  | force {s s' depth id r} : Built s → (force (eval depth) id).Ends s r s' → Built s'
  | apply {s s' depth f head args env r} : Built s → (Value.function f).Within s.store.frames.size → s.HasFrame env →
      (f.apply (eval depth) head args env).Ends s r s' → Built s'
  | expand {s s' depth env options t r} : Built s → s.HasFrame env →
      (expand (eval depth) env options t).Ends s r s' → Built s'
  /-- what is recorded, and what a session knows, may change -/
  | aside {s s'} : Built s → s'.store = s.store → Built s'

/-- A name that is not bound yet comes last. -/
theorem Frame.insert_of_not_mem {name : String} {bindings : List (String × Binding)} (b : Binding)
    (h : name ∉ bindings.map Prod.fst) : insert name b bindings = bindings ++ [(name, b)] := by
  induction bindings with
  | nil => rfl
  | cons entry rest ih =>
    rw [List.map_cons, List.mem_cons, not_or] at h
    rw [insert, if_neg (Ne.symm h.1), ih h.2, List.cons_append]

/-- A host makes an environment with bindings by binding one name after the other. -/
theorem Built.ofBindings (before : List (String × Binding)) {after : List (String × Binding)}
    (hs : Built (.ofBindings before)) (hnames : ((before ++ after).map Prod.fst).Nodup)
    (hvalues : ∀ e ∈ after, ∀ v, e.2 = .value v → v.Within 1) : Built (.ofBindings (before ++ after)) := by
  induction after generalizing before with
  | nil => rwa [List.append_nil]
  | cons e rest ih =>
    obtain ⟨he, hrest⟩ := List.forall_mem_cons.1 hvalues
    rw [List.append_cons] at hnames ⊢
    have hnew : e.1 ∉ before.map Prod.fst := by
      rw [List.map_append, List.map_append] at hnames
      have hdisjoint := (List.nodup_append'.1 (List.nodup_append'.1 hnames).1).2.2
      exact fun hmem => hdisjoint hmem (List.mem_singleton_self _)
    have hframe : (State.ofBindings before).HasFrame 0 := Nat.one_pos
    refine ih _ ?_ hnames hrest
    rw [State.ofBindings, ← Frame.insert_of_not_mem e.2 hnew]
    exact hs.bind e.1 hframe he

/-- Frames nest in such a state, and no frame needs to be hidden. -/
theorem Built.isScoped {s : State} (h : Built s) : s.store.IsScoped fun _ => False := by
  induction h with
  | start => exact .empty
  | base _ h ih => exact (keepsScope_newBase _ _ _ ih (Nat.zero_le _) h).1
  | root _ ih =>
    refine ih.newFrame (fun p hp => ?_) none
    cases hp
  | child _ hparent ih => exact ih.newFrame (fun _ hp => Option.some.inj hp ▸ .of_lt hparent) none
  | called _ hparent hcontext ih =>
    exact (ih.newContext (.of_lt hcontext)).newFrame (fun _ hp => Option.some.inj hp ▸ .of_lt hparent) (some _)
  | context _ hcontext ih => exact ih.newContext (.of_lt hcontext)
  | promise expr _ henv ih => exact ih.newPromise expr (.of_lt henv)
  | function _ ih => exact ih.newFunction
  | bind name _ _ hb ih => exact ih.bind _ name fun v hv => (hb v hv).shown
  | marked forcing _ ih => exact ih.modifyPromise _ (fun _ => rfl) fun _ _ hv => .inl hv
  | filled _ hv ih => exact ih.modifyPromise _ (fun _ => rfl) fun _ _ hw => .inr (Option.some.inj hw ▸ hv.shown)
  | eval _ henv h ih => exact ((keepsScope_eval _ _).inside _ (.of_lt henv) _ _ _ ih (Nat.le_refl _) h).1
  | force _ h ih => exact (keepsScope_force (keepsScope_eval _ _) _ _ _ _ ih (Nat.zero_le _) h).1
  | apply _ hf henv h ih =>
    exact (keepsScope_apply (keepsScope_eval _ _) (.of_lt henv) hf.shown _ _ _ _ _ ih (Nat.le_refl _) h).1
  | expand _ henv h ih =>
    exact (keepsScope_node (keepsScope_eval _ _) (.of_lt henv) _ _ _ _ _ _ _ ih (Nat.le_refl _) h).1
  | aside _ hsame ih => exact hsame ▸ ih

/-! ## The way outwards -/

namespace Store

variable {s : Store}

/-- The frames from one on outwards, to one that is in no other. -/
inductive IsWay (s : Store) : FrameId → List FrameId → Prop
  | root {id : FrameId} {f : Frame} (hf : s.frames[id]? = some f) (hroot : f.parent = none) : IsWay s id [id]
  | inside {id p : FrameId} {f : Frame} {way : List FrameId} (hf : s.frames[id]? = some f)
      (hparent : f.parent = some p) (hway : IsWay s p way) : IsWay s id (id :: way)

/-- Every frame was made after the one around it. -/
def IsNested (s : Store) : Prop := ∀ id p, s.parent? id = some p → p < id

theorem IsScoped.isNested {hidden : FrameId → Prop} (h : s.IsScoped hidden) : s.IsNested := by
  intro id p hp
  obtain ⟨f, hf, hp⟩ := Option.bind_eq_some_iff.1 hp
  exact (h.parent id f p hf hp).1

/-- The bound of the chain makes no difference, once it is above the number of the frame. -/
theorem IsNested.chainUpTo_eq (h : s.IsNested) : ∀ {n m : Nat} {id : FrameId}, id < n → id < m →
    s.chainUpTo n id = s.chainUpTo m id
  | n + 1, m + 1, id, hn, hm => by
    unfold chainUpTo
    cases hp : s.parent? id with
    | none => rfl
    | some p =>
      have hlt := h id p hp
      exact congrArg (id :: ·) (h.chainUpTo_eq (Nat.lt_of_lt_of_le hlt (Nat.le_of_lt_succ hn))
        (Nat.lt_of_lt_of_le hlt (Nat.le_of_lt_succ hm)))

theorem chain_of_root {id : FrameId} (hroot : s.parent? id = none) : s.chain id = [id] := by
  rw [chain, chainUpTo, hroot]

theorem IsNested.chain_of_parent (h : s.IsNested) {id p : FrameId} (hp : s.parent? id = some p) :
    s.chain id = id :: s.chain p := by
  rw [chain, chainUpTo, hp]
  exact congrArg (id :: ·) (h.chainUpTo_eq (h id p hp) (Nat.lt_succ_self p))

theorem parent?_of_frame {id : FrameId} {f : Frame} (hf : s.frames[id]? = some f) : s.parent? id = f.parent := by
  rw [parent?, hf]
  rfl

/-- The way outwards ends, and is the chain. -/
theorem IsNested.isWay_iff (h : s.IsNested) {id : FrameId} (hid : id < s.frames.size) {way : List FrameId} :
    s.IsWay id way ↔ way = s.chain id := by
  constructor
  · intro hway
    induction hway with
    | root hf hroot => rw [chain_of_root ((parent?_of_frame hf).trans hroot)]
    | inside hf hparent _ ih =>
      have hp := (parent?_of_frame hf).trans hparent
      rw [h.chain_of_parent hp, ih (Nat.lt_trans (h _ _ hp) hid)]
  · rintro rfl
    induction id using Nat.strongRecOn with
    | ind id ih =>
      have hf : s.frames[id]? = some s.frames[id] := Array.getElem?_eq_getElem hid
      cases hparent : s.frames[id].parent with
      | none =>
        rw [chain_of_root ((parent?_of_frame hf).trans hparent)]
        exact .root hf hparent
      | some p =>
        have hp := (parent?_of_frame hf).trans hparent
        rw [h.chain_of_parent hp]
        exact .inside hf hparent (ih p (h id p hp) (Nat.lt_trans (h id p hp) hid))

/-! ## Seeking along the way -/

variable {α : Type} {sought : Frame → Option α}

/-- Going outwards from a frame until one has what is sought: what that frame has, or nothing where
the way ends. -/
inductive Seeks (s : Store) (sought : Frame → Option α) : FrameId → Option α → Prop
  | here {id : FrameId} {f : Frame} {a : α} (hf : s.frames[id]? = some f) (ha : sought f = some a) :
      Seeks s sought id (some a)
  | outwards {id p : FrameId} {f : Frame} {r : Option α} (hf : s.frames[id]? = some f) (hnone : sought f = none)
      (hparent : f.parent = some p) (hrest : Seeks s sought p r) : Seeks s sought id r
  | nowhere {id : FrameId} {f : Frame} (hf : s.frames[id]? = some f) (hnone : sought f = none)
      (hroot : f.parent = none) : Seeks s sought id none

/-- What a frame itself has. -/
def own? (s : Store) (sought : Frame → Option α) (id : FrameId) : Option α := s.frames[id]?.bind sought

theorem own?_of_frame {id : FrameId} {f : Frame} (hf : s.frames[id]? = some f) : s.own? sought id = sought f := by
  rw [own?, hf]
  rfl

/-- Seeking ends, with the first thing found on the chain. -/
theorem IsNested.seeks_iff (h : s.IsNested) {id : FrameId} (hid : id < s.frames.size) {r : Option α} :
    s.Seeks sought id r ↔ r = (s.chain id).findSome? (s.own? sought) := by
  constructor
  · intro hseeks
    induction hseeks with
    | @here id f a hf ha =>
      rw [chain, chainUpTo, List.findSome?_cons, own?_of_frame hf, ha]
    | outwards hf hnone hparent _ ih =>
      have hp := (parent?_of_frame hf).trans hparent
      rw [h.chain_of_parent hp, List.findSome?_cons, own?_of_frame hf, hnone]
      exact ih (Nat.lt_trans (h _ _ hp) hid)
    | nowhere hf hnone hroot =>
      rw [chain_of_root ((parent?_of_frame hf).trans hroot), List.findSome?_cons, own?_of_frame hf, hnone]
      rfl
  · rintro rfl
    induction id using Nat.strongRecOn with
    | ind id ih =>
      have hf : s.frames[id]? = some s.frames[id] := Array.getElem?_eq_getElem hid
      cases hsought : sought s.frames[id] with
      | some a =>
        rw [chain, chainUpTo, List.findSome?_cons, own?_of_frame hf, hsought]
        exact .here hf hsought
      | none =>
        cases hparent : s.frames[id].parent with
        | none =>
          rw [chain_of_root ((parent?_of_frame hf).trans hparent), List.findSome?_cons, own?_of_frame hf, hsought]
          exact .nowhere hf hsought hparent
        | some p =>
          have hp := (parent?_of_frame hf).trans hparent
          rw [h.chain_of_parent hp, List.findSome?_cons, own?_of_frame hf, hsought]
          exact .outwards hf hsought hparent (ih p (h id p hp) (Nat.lt_trans (h id p hp) hid))

/-- A frame is on the way outwards from another one, and no nearer frame has what is sought. -/
def Reaches (s : Store) (sought : Frame → Option α) (g id : FrameId) : Prop :=
  ∃ before after, s.chain g = before ++ id :: after ∧ ∀ nearer ∈ before, s.own? sought nearer = none

/-- What is found is what the nearest frame has that has anything. -/
theorem findSome?_chain_iff {g : FrameId} {a : α} : (s.chain g).findSome? (s.own? sought) = some a ↔
    ∃ id, s.Reaches sought g id ∧ s.own? sought id = some a := by
  rw [List.findSome?_eq_some_iff]
  constructor
  · rintro ⟨before, id, after, hchain, ha, hnone⟩
    exact ⟨id, ⟨before, after, hchain, hnone⟩, ha⟩
  · rintro ⟨id, ⟨before, after, hchain, hnone⟩, ha⟩
    exact ⟨before, id, after, hchain, ha, hnone⟩

/-! ## Binding a name -/

section
variable {ι β : Type} {p q : ι → Option β} {i : ι} (hother : ∀ j, j ≠ i → q j = p j)
include hother

/-- What one element has got is found, if nothing is found before it. -/
theorem findSome?_of_first {b : β} (hself : q i = some b) {before : List ι} (hnone : ∀ j ∈ before, p j = none)
    (after : List ι) : (before ++ i :: after).findSome? q = some b := by
  induction before with
  | nil => rw [List.nil_append, List.findSome?_cons, hself]
  | cons j before ih =>
    obtain ⟨hj, hbefore⟩ := List.forall_mem_cons.1 hnone
    rw [List.cons_append, List.findSome?_cons]
    by_cases hij : j = i
    · rw [hij, hself]
    · rw [hother j hij, hj]
      exact ih hbefore

theorem findSome?_of_not_first {l : List ι}
    (h : ¬ ∃ before after, l = before ++ i :: after ∧ ∀ j ∈ before, p j = none) : l.findSome? q = l.findSome? p := by
  induction l with
  | nil => rfl
  | cons j l ih =>
    have hij : j ≠ i := fun hij => h ⟨[], l, by rw [hij, List.nil_append], nofun⟩
    rw [List.findSome?_cons, List.findSome?_cons, hother j hij]
    cases hj : p j with
    | some a => rfl
    | none =>
      refine ih fun ⟨before, after, hl, hnone⟩ => h ⟨j :: before, after, by rw [hl, List.cons_append], ?_⟩
      exact List.forall_mem_cons.2 ⟨hj, hnone⟩

end

section
variable (s) (f : FrameId) (name : String) (b : Binding)

theorem frames_bind (id : FrameId) : (s.bind f name b).frames[id]? = if f = id
    then s.frames[id]?.map fun g => { g with bindings := Frame.insert name b g.bindings } else s.frames[id]? :=
  Array.getElem?_modify

/-- What is not a binding is the same in all frames. -/
theorem own?_bind_of_other {other : Frame → Option α}
    (h : ∀ g : Frame, other { g with bindings := Frame.insert name b g.bindings } = other g) (id : FrameId) :
    (s.bind f name b).own? other id = s.own? other id := by
  rw [own?, own?, frames_bind]
  split
  · rw [Option.bind_map]
    exact congrArg _ (funext h)
  · rfl

theorem own?_bind (hf : f < s.frames.size) (other : String) (id : FrameId) :
    (s.bind f name b).own? (·.binding? other) id =
      if other = name ∧ id = f then some b else s.own? (·.binding? other) id := by
  by_cases hname : other = name
  · subst hname
    by_cases hid : id = f
    · subst hid
      rw [own?, frames_bind, if_pos rfl, if_pos ⟨rfl, rfl⟩, Array.getElem?_eq_getElem hf]
      simp [Frame.binding?, Frame.lookup_insert]
    · rw [own?, frames_bind, if_neg (Ne.symm hid), if_neg (fun h => hid h.2)]
      rfl
  · rw [if_neg (fun h => hname h.1)]
    refine own?_bind_of_other s f name b (fun g => ?_) id
    simp [Frame.binding?, Frame.lookup_insert, hname]

theorem chain_bind (g : FrameId) : (s.bind f name b).chain g = s.chain g := by
  have hparent (id : FrameId) : (s.bind f name b).parent? id = s.parent? id :=
    own?_bind_of_other s f name b (fun _ => rfl) id
  have hupTo (n : Nat) (id : FrameId) : (s.bind f name b).chainUpTo n id = s.chainUpTo n id := by
    induction n generalizing id with
    | zero => rfl
    | succ n ih => simp only [chainUpTo, hparent, ih]
  exact hupTo (g + 1) g

theorem context?_bind (g : FrameId) : (s.bind f name b).context? g = s.context? g := by
  have hown : (s.bind f name b).own? (·.context) = s.own? (·.context) :=
    funext fun id => own?_bind_of_other s f name b (fun _ => rfl) id
  show ((s.bind f name b).chain g).findSome? ((s.bind f name b).own? (·.context)) = _
  rw [chain_bind, hown]
  rfl

variable {s f name b} (hf : f < s.frames.size) {g : FrameId}
include hf

/-- From a frame that reaches the one where the name was bound, that binding is found. -/
theorem get?_bind_of_reaches (h : s.Reaches (·.binding? name) g f) : (s.bind f name b).get? g name = some b := by
  obtain ⟨before, after, hchain, hnone⟩ := h
  show ((s.bind f name b).chain g).findSome? ((s.bind f name b).own? (·.binding? name)) = some b
  rw [chain_bind, hchain]
  refine findSome?_of_first (fun id hid => ?_) ?_ hnone after
  · rw [own?_bind s f name b hf, if_neg (fun h => hid h.2)]
  · rw [own?_bind s f name b hf, if_pos ⟨rfl, rfl⟩]

/-- Other names, and frames from which it is not reached, find what they found before. -/
theorem get?_bind_of_not_reaches {other : String} (h : ¬ (other = name ∧ s.Reaches (·.binding? name) g f)) :
    (s.bind f name b).get? g other = s.get? g other := by
  show ((s.bind f name b).chain g).findSome? ((s.bind f name b).own? (·.binding? other)) =
    (s.chain g).findSome? (s.own? (·.binding? other))
  rw [chain_bind]
  by_cases hname : other = name
  · subst hname
    refine findSome?_of_not_first (fun id hid => ?_) fun hreaches => h ⟨rfl, hreaches⟩
    rw [own?_bind s f other b hf, if_neg (fun h => hid h.2)]
  · have hown : (s.bind f name b).own? (·.binding? other) = s.own? (·.binding? other) := funext fun id => by
      rw [own?_bind s f name b hf, if_neg (fun h => hname h.1)]
    rw [hown]

end

end Store

/-! ## Names in the states of a host -/

/-- Looking a name up ends, unless it finds a promise that cannot be forced to an end. -/
theorem exists_ends_lookup_iff {ev : Evaluator} {s : State} {g : FrameId} {name : String} :
    (∃ r s', (lookup ev g name).Ends s r s') ↔
      ∀ p, s.store.get? g name = some (.promise p) → ∃ r s', (force ev p).Ends s r s' := by
  simp only [lookup, Run.ends_store_bind]
  cases hget : s.store.get? g name with
  | none => simp
  | some b => cases b <;> simp

/-- In the states of a host the way from a frame outwards ends, and is its chain. Seeking a name or a
context along it ends, and finds what the nearest frame has. Looking a name up ends as well, unless
the promise it finds is evaluated without end. A binding made in a frame is what is found of its name
from the frames that reach that one; all else is found as before. -/
theorem names_resolve_to_nearest {s : State} (hs : Built s) {g : FrameId} (hg : s.HasFrame g) :
    (∀ way, s.store.IsWay g way ↔ way = s.store.chain g) ∧
    (∀ name r, s.store.Seeks (·.binding? name) g r ↔ r = s.store.get? g name) ∧
    (∀ r, s.store.Seeks (·.context) g r ↔ r = s.store.context? g) ∧
    (∀ name b, s.store.get? g name = some b ↔
      ∃ id, s.store.Reaches (·.binding? name) g id ∧ s.store.own? (·.binding? name) id = some b) ∧
    (∀ c, s.store.context? g = some c ↔
      ∃ id, s.store.Reaches (·.context) g id ∧ s.store.own? (·.context) id = some c) ∧
    (∀ ev name, (∃ r s', (lookup ev g name).Ends s r s') ↔
      ∀ p, s.store.get? g name = some (.promise p) → ∃ r s', (force ev p).Ends s r s') ∧
    ∀ f, s.HasFrame f → ∀ name b,
      (s.store.Reaches (·.binding? name) g f → (s.store.bind f name b).get? g name = some b) ∧
      (∀ other, ¬ (other = name ∧ s.store.Reaches (·.binding? name) g f) →
        (s.store.bind f name b).get? g other = s.store.get? g other) ∧
      (∀ other, s.store.get? g other ≠ some b → ((s.store.bind f name b).get? g other ≠ s.store.get? g other ↔
        other = name ∧ s.store.Reaches (·.binding? name) g f)) ∧
      (s.store.bind f name b).context? g = s.store.context? g := by
  have hnested := hs.isScoped.isNested
  refine ⟨fun way => hnested.isWay_iff hg, fun name r => hnested.seeks_iff hg, fun r => hnested.seeks_iff hg,
    fun name b => Store.findSome?_chain_iff, fun c => Store.findSome?_chain_iff,
    fun ev name => exists_ends_lookup_iff, fun f hf name b => ⟨Store.get?_bind_of_reaches hf,
      fun other => Store.get?_bind_of_not_reaches hf, fun other hnew => ⟨fun hchanged => ?_, ?_⟩,
      Store.context?_bind _ _ _ _ _⟩⟩
  · exact Classical.byContradiction fun h => hchanged (Store.get?_bind_of_not_reaches hf h)
  · rintro ⟨rfl, hreaches⟩ hsame
    exact hnew (hsame.symm.trans (Store.get?_bind_of_reaches hf hreaches))

/-- A function is made in frame 0 and called in frame 1, which is inside frame 0. Its body is evaluated
in frame 2, where `x` bound in frame 0 is seen, and would not be if it were bound in frame 1. -/
theorem names_resolve_to_nearest_called : ∃ s, Built s ∧ s.HasFrame 2 ∧ s.store.IsWay 2 [2, 0] ∧
    s.store.get? 2 "x" = some (.value (.ofInt 1)) ∧ s.store.context? 2 = some 0 ∧
    (s.store.bind 0 "x" (.value (.ofInt 2))).get? 2 "x" = some (.value (.ofInt 2)) ∧
    (s.store.bind 1 "x" (.value (.ofInt 2))).get? 2 "x" = some (.value (.ofInt 1)) := by
  obtain ⟨s, hs, hsize, hchain, hown, hx, hcontext⟩ : ∃ s, Built s ∧ s.store.frames.size = 3 ∧
      s.store.chain 2 = [2, 0] ∧ s.store.own? (·.binding? "x") 2 = none ∧
      s.store.get? 2 "x" = some (.value (.ofInt 1)) ∧ s.store.context? 2 = some 0 := by
    let root : State := { State.empty with store := (State.empty.store.newFrame none none).2 }
    let named : State := { root with store := root.store.bind 0 "x" (.value (.ofInt 1)) }
    let bound : State :=
      { named with store := named.store.bind 0 "f" (.value (.function (.closure 0 ⟨[], .symbol "x", 0⟩))) }
    let nested : State := { bound with store := (bound.store.newFrame (some 0) none).2 }
    let called := eval 3 (.call (.symbol "f") []) 1
    have hroot : root.HasFrame 0 := Nat.zero_lt_one
    have hnamed : Built named := .bind "x" (.root .start) hroot fun v hv => by cases hv; exact .scalar _
    have hnamed' : named.HasFrame 0 := Nat.zero_lt_one
    have hbound : Built bound := .bind "f" hnamed hnamed' fun v hv => by
      cases hv
      exact .closure 0 hnamed'
    have hbound' : bound.HasFrame 0 := Nat.zero_lt_one
    have hnested : Built nested := .child hbound hbound'
    have hnested' : nested.HasFrame 1 := Nat.one_lt_two
    obtain ⟨s, hcalled, h⟩ : ∃ s, called.Ends nested (.ok (.ofInt 1)) s ∧ s.store.frames.size = 3 ∧
        s.store.chain 2 = [2, 0] ∧ s.store.own? (·.binding? "x") 2 = none ∧
        s.store.get? 2 "x" = some (.value (.ofInt 1)) ∧ s.store.context? 2 = some 0 :=
      ⟨_, rfl, rfl, rfl, rfl, rfl, rfl⟩
    exact ⟨s, .eval hnested hnested' hcalled, h⟩
  have hframe (id : FrameId) (h : id < 3) : s.HasFrame id := Nat.lt_of_lt_of_eq h hsize.symm
  obtain ⟨hway, -, -, -, -, -, hbind⟩ := names_resolve_to_nearest hs (hframe 2 (by decide))
  have hreaches : s.store.Reaches (·.binding? "x") 2 0 := ⟨[2], [], hchain, List.forall_mem_singleton.2 hown⟩
  have hother : ¬ s.store.Reaches (·.binding? "x") 2 1 := by
    rintro ⟨before, after, hsplit, -⟩
    have hmem : 1 ∈ s.store.chain 2 := hsplit ▸ List.mem_append_right before List.mem_cons_self
    rw [hchain] at hmem
    simp at hmem
  have hseen := (hbind 0 (hframe 0 (by decide)) "x" (.value (.ofInt 2))).1 hreaches
  have hunseen := (hbind 1 (hframe 1 (by decide)) "x" (.value (.ofInt 2))).2.1 "x" fun h => hother h.2
  exact ⟨s, hs, hframe 2 (by decide), (hway _).2 hchain.symm, hx, hcontext, hseen, hunseen.trans hx⟩

end Quotation
