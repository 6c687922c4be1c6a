import Quotation.Proofs.Eval.Forwarding
import Quotation.Proofs.Frame.Calling
import Quotation.Proofs.Template.Collapse
/-!
# What is supplied is captured

A call supplies a closure with expressions: its arguments as they are written, and for `...`
what the tail was supplied with (`State.supplied`). Matching puts each of them in one place,
and the context of the call has them there. `enexprs` takes the ones for parameters through
syntax and a template, and the ones in the tail as they are. Expressions without markers come
through unchanged, so none is lost and none is there twice (`enexprs_returns_supplied`).
-/

namespace Quotation

/-! ## Nodes without markers -/

/-- Whether an argument is a call of `:=` with two arguments, all three of them unnamed. -/
def Arg.isDefinitionCall : Arg Node → Bool
  | ⟨none, .call (.symbol op) [⟨none, _⟩, ⟨none, _⟩]⟩ => op == defineName
  | _ => false

namespace Node

/-- Whether a call is one of `!!` or `!!!` with one argument, unnamed. -/
def isMarkerCall : Node → List (Arg Node) → Bool
  | symbol op, [⟨none, _⟩] => op == unquoteName || op == spliceName
  | _, _ => false

mutual
/-- Whether there is a call of `!!` or `!!!` anywhere, or an argument that is a call of `:=`,
which are markers in a template. -/
def hasMarkers : Node → Bool
  | const _ => false
  | symbol _ => false
  | call head args => isMarkerCall head args || head.hasMarkers || anyMarkers args
  | pairlist args => anyMarkers args

def anyMarkers : List (Arg Node) → Bool
  | [] => false
  | a :: as => a.isDefinitionCall || a.value.hasMarkers || anyMarkers as
end

theorem hasMarkers_of_isMissing {n : Node} (h : n.isMissing = true) : n.hasMarkers = false := by
  cases n with
  | symbol _ => rfl
  | const _ | call _ _ | pairlist _ => cases h

theorem anyMarkers_eq_false_iff {args : List (Arg Node)} : anyMarkers args = false ↔
    ∀ a ∈ args, a.isDefinitionCall = false ∧ a.value.hasMarkers = false := by
  induction args with
  | nil => simp [anyMarkers]
  | cons a as ih => simp [anyMarkers, ih, and_assoc]

end Node

theorem Arg.isDefinition_eq_true {a : Arg Syntax} (h : a.isDefinition = true) :
    ∃ lhs rhs, a = ⟨none, .define lhs rhs⟩ := by
  unfold Arg.isDefinition at h
  split at h
  · rename_i op lhs rhs
    exact ⟨lhs, rhs, by rw [eq_of_beq h]; rfl⟩
  · cases h

/-- An argument is read as a definition only if it is a call of `:=`, since it is what the
definition spells. -/
theorem isDefinition_render {a : Arg Node} (h : a.isDefinitionCall = false) :
    (a.map Node.render).isDefinition = false := by
  rw [Bool.eq_false_iff]
  intro hdefinition
  obtain ⟨lhs, rhs, hrender⟩ := Arg.isDefinition_eq_true hdefinition
  obtain ⟨name, value⟩ := a
  obtain ⟨rfl, hvalue⟩ := Arg.mk.inj hrender
  have hspelt : value = (Syntax.define lhs rhs).quote := by rw [← hvalue, Node.quote_render]
  subst hspelt
  cases h

theorem areMarkerFree_iff {args : List (Arg Syntax)} :
    Syntax.AreMarkerFree args ↔ ∀ a ∈ args, a.isDefinition = false ∧ a.value.IsMarkerFree := by
  induction args with
  | nil => exact iff_of_true Syntax.areMarkerFree_nil (List.forall_mem_nil _)
  | cons a as ih => rw [Syntax.areMarkerFree_cons, ih, List.forall_mem_cons]

theorem areMarkerFree_render {args : List (Arg Node)}
    (h : ∀ a ∈ args, a.isDefinitionCall = false ∧ a.value.render.IsMarkerFree) :
    Syntax.AreMarkerFree (args.map (Arg.map Node.render)) :=
  areMarkerFree_iff.2 (List.forall_mem_map.2 fun a ha => ⟨isDefinition_render (h a ha).1, (h a ha).2⟩)

/-- A call is rendered as a marker only if it calls one, since it is what the marker spells. -/
theorem render_call_of_not_marker {head : Node} {args : List (Arg Node)} (h : Node.isMarkerCall head args = false) :
    (Node.call head args).render = .apply head.render (Node.renderArgs args) := by
  rw [Node.render_call, Syntax.applyMarked_eq_apply_iff]
  unfold Syntax.isMarkerCall
  split
  · rename_i op x hhead hargs
    have hsymbol : head = .symbol op := by
      rw [← Node.quote_render head, hhead]
      rfl
    have hsingle : args = [⟨none, x.quote⟩] := by
      rw [← Node.quoteArgs_renderArgs fun a (_ : a ∈ args) => Node.quote_render a.value, hargs]
      rfl
    rw [hsymbol, hsingle] at h
    exact h
  · rfl

theorem isMarkerFree_render {n : Node} (h : n.hasMarkers = false) : n.render.IsMarkerFree := by
  induction n with
  | const c => exact ⟨rfl, rfl⟩
  | symbol name => exact ⟨rfl, rfl⟩
  | call head args ihh iha =>
    simp only [Node.hasMarkers, Bool.or_eq_false_iff] at h
    obtain ⟨⟨hcall, hhead⟩, hargs⟩ := h
    rw [render_call_of_not_marker hcall, Node.renderArgs_eq_map, Syntax.isMarkerFree_apply]
    refine ⟨ihh hhead, areMarkerFree_render fun a ha => ?_⟩
    obtain ⟨hdefinition, hvalue⟩ := Node.anyMarkers_eq_false_iff.1 hargs a ha
    exact ⟨hdefinition, iha a ha hvalue⟩
  | pairlist args iha =>
    rw [Node.render, Node.renderArgs_eq_map, Syntax.isMarkerFree_list]
    refine areMarkerFree_render fun a ha => ?_
    obtain ⟨hdefinition, hvalue⟩ := Node.anyMarkers_eq_false_iff.1 h a ha
    exact ⟨hdefinition, iha a ha hvalue⟩

/-- Arguments without markers are quoted with expansion as they are. -/
theorem quoteExpanding_unmarked {args : List (Arg Node)} (h : Node.anyMarkers args = false) (ev : Evaluator)
    (env : FrameId) : quoteExpanding ev env (.list (args.map (Arg.map Node.render))) = pure (.pairlist args) := by
  have hlist : (Syntax.list (args.map (Arg.map Node.render))).IsMarkerFree := by
    refine Syntax.isMarkerFree_list.2 (areMarkerFree_render fun a ha => ?_)
    obtain ⟨hdefinition, hvalue⟩ := Node.anyMarkers_eq_false_iff.1 h a ha
    exact ⟨hdefinition, isMarkerFree_render hvalue⟩
  have hquote : (Syntax.list (args.map (Arg.map Node.render))).quote = .pairlist args := by
    rw [← Node.renderArgs_eq_map, Syntax.quote, Node.quoteArgs_renderArgs fun a _ => Node.quote_render a.value]
  rw [quoteExpanding_of_isMarkerFree hlist, hquote]

/-- For named arguments that is so if their values have no markers. At the top a call of `:=` is
none, as it has a name. -/
theorem quoteExpanding_named {args : List (Arg Node)} (hnamed : ∀ a ∈ args, a.name ≠ none)
    (hfree : ∀ a ∈ args, a.value.hasMarkers = false) (ev : Evaluator) (env : FrameId) :
    quoteExpanding ev env (.list (args.map (Arg.map Node.render))) = pure (.pairlist args) := by
  refine quoteExpanding_unmarked (Node.anyMarkers_eq_false_iff.2 fun a ha => ⟨?_, hfree a ha⟩) ev env
  obtain ⟨_ | name, value⟩ := a
  · exact absurd rfl (hnamed _ ha)
  · rfl

/-! ## What a call supplies -/

/-- The expressions that `...` stands for in an environment. -/
def State.forwarded (s : State) (env : FrameId) : List (Arg Node) :=
  match s.store.get? env tailName with
  | some (.tail tail) => s.tailExprs tail
  | _ => []

/-- The expressions that arguments supply: themselves, as they are written, and for `...` the
ones that it stands for. -/
def State.supplied (s : State) (env : FrameId) (args : List (Arg Node)) : List (Arg Node) :=
  args.flatMap fun a => if a.isTail then s.forwarded env else [a]

theorem Store.get?_of_frames_eq {a b : Store} (h : a.frames = b.frames) (env : FrameId) (name : String) :
    a.get? env name = b.get? env name := by
  have hchain (n : Nat) (id : FrameId) : a.chainUpTo n id = b.chainUpTo n id := by
    induction n generalizing id with
    | zero => rfl
    | succ n ih => simp only [Store.chainUpTo, Store.parent?, h, ih]
  rw [Store.get?, Store.get?, Store.chain, Store.chain, hchain, h]

section
open Run

variable {s t u s' : State} {env frame : FrameId} {args : List (Arg Node)} {actuals : List (Arg PromiseId)}

theorem AddsPromises.tailExprs (h : AddsPromises s t) {tail : List (Arg PromiseId)} (hmade : Made s tail) :
    t.tailExprs tail = s.tailExprs tail :=
  List.map_congr_left fun a ha => by rw [Arg.map, Arg.map, (h.kept a.value (hmade a ha)).2]

theorem State.forwarded_of_tail {tail : List (Arg PromiseId)} (h : s.store.get? env tailName = some (.tail tail)) :
    s.forwarded env = s.tailExprs tail := by
  rw [State.forwarded, h]

/-- Making promises does not change what `...` stands for. -/
theorem AddsPromises.forwarded (h : AddsPromises s t) (hframes : t.store.frames = s.store.frames) (hs : TailsMade s) :
    t.forwarded env = s.forwarded env := by
  have hget := Store.get?_of_frames_eq hframes env tailName
  unfold State.forwarded
  rw [hget]
  split
  · rename_i tail htail
    exact h.tailExprs (hs.get? htail)
  · rfl

/-- The promises of the arguments are of what the call supplies. -/
theorem tailExprs_of_ends_delayArgs (hs : TailsMade s) (h : (delayArgs env args).Ends s (.ok actuals) t) :
    t.tailExprs actuals = s.supplied env args := by
  induction args generalizing s actuals with
  | nil =>
    obtain ⟨hactuals, rfl⟩ := ends_pure.1 h
    cases hactuals
    rfl
  | cons a as ih =>
    have hrest {u : State} {here : List (Arg PromiseId)} (hdelays : Delays s u) (hadds : AddsPromises s u)
        (hmade : Made u here) (h : (do return here ++ (← delayArgs env as) : Run _).Ends u (.ok actuals) t) :
        t.tailExprs actuals = u.tailExprs here ++ s.supplied env as := by
      obtain ⟨rest, v, hv, h⟩ := ends_bind_ok.1 h
      obtain ⟨hactuals, rfl⟩ := ends_pure.1 h
      cases hactuals
      have hsupplied : u.supplied env as = s.supplied env as := by
        rw [State.supplied, State.supplied, hadds.forwarded hdelays.frames hs]
      rw [← (adds_of_ends_delayArgs hv).promises.tailExprs hmade, ← hsupplied, ← ih (hdelays.tailsMade hs) hv]
      exact List.map_append
    rw [State.supplied, List.flatMap_cons, ← State.supplied]
    unfold delayArgs at h
    dsimp only at h
    split at h
    · rename_i htail
      obtain ⟨here, u, hhere, hrun⟩ := ends_bind_ok.1 h
      obtain ⟨rfl, hget⟩ := ends_tailOf hhere
      rw [if_pos htail, State.forwarded_of_tail (hget here rfl)]
      exact hrest (.refl _) (.refl _) (hs.get? (hget here rfl)) hrun
    · rename_i htail
      simp only [ends_make_bind, pure_bind] at h
      have hdelays : Delays s { s with store := (s.store.newPromise a.value env).2 } :=
        ⟨rfl, rfl, by simp [Store.newPromise]⟩
      rw [if_neg htail, hrest hdelays (.newPromise s a.value env) (by simp [Made, Store.newPromise]) h]
      have hexpr : ((s.store.newPromise a.value env).2.promise s.store.promises.size).expr = a.value := by
        rw [Store.promise_newPromise, if_pos rfl]
      exact congrArg (fun x => [(⟨a.name, x⟩ : Arg Node)] ++ s.supplied env as) hexpr

/-! ## What the context has for the parameters -/

/-- The expressions that parameters other than the tail were given, under their names. Those
given the missing argument are left out like those given nothing. -/
def givenExprs (exprOf : PromiseId → Node) (slots : List (Param × Option PromiseId)) : List (Arg Node) :=
  slots.filterMap fun (param, slot) =>
    if param.name = tailName then none
    else slot.bind fun p => if (exprOf p).isMissing then none else some (.named param.name (exprOf p))

theorem lookup_of_mem {params : List (String × Node)} (hnodup : (params.map (·.1)).Nodup) {name : String} {expr : Node}
    (h : (name, expr) ∈ params) : params.lookup name = some expr := by
  induction params with
  | nil => cases h
  | cons entry rest ih =>
    obtain ⟨hnot, hrest⟩ := List.nodup_cons.1 hnodup
    rcases List.mem_cons.1 h with rfl | h
    · exact List.lookup_cons_self
    · have hne : name ≠ entry.1 := by
        rintro rfl
        exact hnot (List.mem_map.2 ⟨_, h, rfl⟩)
      rw [List.lookup_cons, beq_false_of_ne hne]
      exact ih hrest h

/-- Where parameters have distinct names, each is found under its own name. -/
theorem givenParams_eq {c : Context} (hnodup : (c.params.map (·.1)).Nodup) : Special.givenParams c =
    c.params.filterMap fun (name, expr) => if expr.isMissing then none else some (.named name expr.render) := by
  refine List.filterMap_congr fun entry h => ?_
  obtain ⟨name, expr⟩ := entry
  dsimp only
  rw [Context.parameter?, lookup_of_mem hnodup h]

/-- The context has the names of some of the parameters. -/
theorem sublist_recorded (exprOf : PromiseId → Node) (slots : List (Param × Option PromiseId)) :
    ((slots.filterMap fun (param, slot) =>
      if param.name = tailName then none else some (param.name, givenExpr exprOf slot)).map (·.1)).Sublist
      (slots.map fun slot => slot.1.name) := by
  induction slots with
  | nil => exact .slnil
  | cons slot rest ih =>
    obtain ⟨param, given⟩ := slot
    by_cases htail : param.name = tailName
    · simp only [List.filterMap_cons, htail, if_true, List.map_cons]
      exact ih.cons _
    · simp only [List.filterMap_cons, htail, if_false, List.map_cons]
      exact ih.cons_cons _

theorem givenParams_callContext (exprOf : PromiseId → Node) (head : Node) {params : List Param} {m : Matching}
    (hnodup : (params.map (·.name)).Nodup) (hlength : m.slots.length = params.length) :
    Special.givenParams (callContext exprOf head args env params m) =
      (givenExprs exprOf (params.zip m.slots)).map (Arg.map Node.render) := by
  have hnames : ((params.zip m.slots).map fun slot => slot.1.name).Nodup := by
    rwa [← List.map_fst_zip (Nat.le_of_eq hlength.symm), List.map_map] at hnodup
  rw [givenParams_eq (hnames.sublist (sublist_recorded exprOf (params.zip m.slots)))]
  simp only [callContext, List.filterMap_filterMap, givenExprs, List.map_filterMap]
  refine List.filterMap_congr fun entry _ => ?_
  obtain ⟨param, slot⟩ := entry
  dsimp only
  by_cases htail : param.name = tailName
  · simp [htail]
  · cases slot with
    | none => simp [htail, givenExpr, Node.missing, Node.isMissing]
    | some p => by_cases hmissing : (exprOf p).isMissing <;> simp [htail, givenExpr, hmissing, Arg.map, Arg.named]

/-! ## Contexts without markers -/

theorem of_mem_givenParams {c : Context} {a : Arg Syntax} (ha : a ∈ Special.givenParams c) :
    ∃ p ∈ c.params, a = .named p.1 p.2.render := by
  obtain ⟨⟨name, _⟩, -, h⟩ := List.mem_filterMap.1 ha
  dsimp only at h
  split at h
  · rename_i expr hparam
    split at h
    · cases h
    · exact ⟨(name, expr), mem_of_lookup_eq_some hparam, (Option.some.inj h).symm⟩
  · cases h

/-- A context is without markers if no expression given for a parameter has one: then they are read
as one plain node. -/
theorem Context.isMarkerless_of_params {c : Context} (h : ∀ p ∈ c.params, p.2.hasMarkers = false) :
    c.IsMarkerless := by
  have hfree : (Syntax.list (Special.givenParams c)).IsMarkerFree := by
    refine Syntax.isMarkerFree_list.2 (areMarkerFree_iff.2 fun a ha => ?_)
    obtain ⟨p, hp, rfl⟩ := of_mem_givenParams ha
    exact ⟨rfl, isMarkerFree_render (h p hp)⟩
  exact ⟨_, (Template.ofSyntaxAt_eq_node_iff _ [] _).2 ⟨hfree, rfl⟩, rfl⟩

/-- So the context of a call is, if no expression that the call gave for a parameter has a marker. -/
theorem isMarkerless_callContext {exprOf : PromiseId → Node} {head : Node} {params : List Param} {m : Matching}
    (h : ∀ a ∈ givenExprs exprOf (params.zip m.slots), a.value.hasMarkers = false) :
    (callContext exprOf head args env params m).IsMarkerless := by
  refine Context.isMarkerless_of_params fun p hp => ?_
  obtain ⟨⟨param, slot⟩, hslot, hrecorded⟩ := List.mem_filterMap.1 hp
  dsimp only at hrecorded
  split at hrecorded
  · cases hrecorded
  · rename_i htail
    obtain rfl := Option.some.inj hrecorded
    cases slot with
    | none => rfl
    | some id =>
      cases hmissing : (exprOf id).isMissing with
      | true => exact Node.hasMarkers_of_isMissing hmissing
      | false => exact h (.named param.name (exprOf id)) (List.mem_filterMap.2 ⟨_, hslot, by simp [htail, hmissing]⟩)

/-! ## Each expression is in one place -/

/-- What was put in the slots are the expressions given for parameters and missing arguments. -/
theorem givenExprs_perm (exprOf : PromiseId → Node) {slots : List (Param × Option PromiseId)}
    (htail : ∀ slot ∈ slots, slot.1.name = tailName → slot.2 = none) :
    ((givenExprs exprOf slots).map (·.value) ++ ((slots.filterMap (·.2)).map exprOf).filter Node.isMissing).Perm
      ((slots.filterMap (·.2)).map exprOf) := by
  induction slots with
  | nil => exact .refl _
  | cons slot rest ih =>
    obtain ⟨param, given⟩ := slot
    obtain ⟨hslot, hrest⟩ := List.forall_mem_cons.1 htail
    replace ih := ih hrest
    cases given with
    | none =>
      have hnone : givenExprs exprOf ((param, none) :: rest) = givenExprs exprOf rest :=
        List.filterMap_cons_none (ite_self none)
      rwa [hnone]
    | some p =>
      have hname : param.name ≠ tailName := fun hname => by cases hslot hname
      have hcons : ((param, some p) :: rest).filterMap (·.2) = p :: rest.filterMap (·.2) := rfl
      rw [hcons, List.map_cons]
      cases hmissing : (exprOf p).isMissing with
      | true =>
        have hnone : givenExprs exprOf ((param, some p) :: rest) = givenExprs exprOf rest :=
          List.filterMap_cons_none (by simp [hname, hmissing])
        rw [hnone, List.filter_cons_of_pos hmissing]
        exact List.perm_middle.trans (ih.cons _)
      | false =>
        have hsome : givenExprs exprOf ((param, some p) :: rest) =
            .named param.name (exprOf p) :: givenExprs exprOf rest :=
          List.filterMap_cons_some (by simp [hname, hmissing])
        rw [hsome, List.filter_cons_of_neg (by simp [hmissing])]
        exact ih.cons _

theorem of_mem_givenExprs {exprOf : PromiseId → Node} {slots : List (Param × Option PromiseId)} {a : Arg Node}
    (ha : a ∈ givenExprs exprOf slots) : a.name ≠ none ∧ a.value ∈ (slots.filterMap (·.2)).map exprOf := by
  obtain ⟨⟨param, slot⟩, hslot, h⟩ := List.mem_filterMap.1 ha
  dsimp only at h
  split at h
  · cases h
  · obtain ⟨p, hp, h⟩ := Option.bind_eq_some_iff.1 h
    split at h
    · cases h
    · cases h
      exact ⟨nofun, List.mem_map.2 ⟨p, List.mem_filterMap.2 ⟨_, hslot, hp⟩, rfl⟩⟩

/-! ## Capturing -/

/-- The expressions given for the parameters in a matching. -/
def State.given (t : State) (params : List Param) (m : Matching) : List (Arg Node) :=
  givenExprs (fun p => (t.promise p).expr) (params.zip m.slots)

/-- The expressions of all promises in the slots of a matching. -/
def State.slotExprs (t : State) (m : Matching) : List Node := (m.slots.filterMap id).map fun p => (t.promise p).expr

variable {c : Closure} {head : Node} {m : Matching} {f : Frame}

theorem State.value_tailExprs (t : State) (tail : List (Arg PromiseId)) :
    (t.tailExprs tail).map (·.value) = (tail.map (·.value)).map fun p => (t.promise p).expr := by
  simp [State.tailExprs]

theorem filterMap_zip {params : List Param} {slots : List (Option PromiseId)} (hlength : slots.length = params.length) :
    (params.zip slots).filterMap (·.2) = slots.filterMap id := by
  have hsnd : (params.zip slots).map Prod.snd = slots := List.map_snd_zip (Nat.le_of_eq hlength)
  rw [← hsnd, List.filterMap_map, hsnd]
  rfl

/-- What is given for parameters and what is in the tail are all expressions of the arguments, but for
missing arguments in slots. -/
theorem supplied_perm (t : State) (hm : Matching.Matched c.params actuals m) :
    ((t.given c.params m ++ t.tailExprs m.tail).map (·.value) ++ (t.slotExprs m).filter Node.isMissing).Perm
      ((t.tailExprs actuals).map (·.value)) := by
  have htail : ∀ slot ∈ c.params.zip m.slots, slot.1.name = tailName → slot.2 = none := by
    intro slot hslot hname
    obtain ⟨i, hi⟩ := List.mem_iff_getElem?.1 hslot
    obtain ⟨hparam, hgiven⟩ := List.getElem?_zip_eq_some.1 hi
    rw [hm.slot_of_tail hparam hname] at hgiven
    exact (Option.some.inj hgiven).symm
  have hslots : ((t.given c.params m).map (·.value) ++ (t.slotExprs m).filter Node.isMissing).Perm
      (t.slotExprs m) := by
    have hperm := givenExprs_perm (fun p => (t.promise p).expr) htail
    rwa [filterMap_zip hm.length] at hperm
  have hconserved : (t.slotExprs m ++ (t.tailExprs m.tail).map (·.value)).Perm
      ((t.tailExprs actuals).map (·.value)) := by
    rw [t.value_tailExprs, t.value_tailExprs, State.slotExprs, ← List.map_append]
    exact hm.conserved.map _
  rw [List.map_append, List.append_assoc]
  refine (List.perm_append_comm.append_left _).trans ?_
  rw [← List.append_assoc]
  exact (hslots.append_right _).trans hconserved

theorem hasMarkers_of_mem_given (hm : Matching.Matched c.params actuals m)
    (hfree : ∀ a ∈ t.tailExprs actuals, a.value.hasMarkers = false) :
    ∀ a ∈ t.given c.params m, a.value.hasMarkers = false := by
  intro a ha
  have hmem : a.value ∈ (t.given c.params m ++ t.tailExprs m.tail).map (·.value) :=
    List.mem_map.2 ⟨a, List.mem_append_left _ ha, rfl⟩
  obtain ⟨b, hb, hvalue⟩ := List.mem_map.1 ((supplied_perm t hm).subset (List.mem_append_left _ hmem))
  exact hvalue ▸ hfree b hb

/-- The context is found in the frame of the call and has what was given and the tail, in every later
state. -/
theorem context_of_isEntered (hentered : IsEntered c head args env m t s' frame f) (hevolves : Evolves nothing s' u) :
    ∃ id, u.store.context? frame = some id ∧
      u.store.context id = callContext (fun p => (t.promise p).expr) head args env c.params m := by
  obtain ⟨id, hid, hcontext⟩ := hentered.recorded
  have hfound : s'.store.context? frame = some id := by
    rw [Store.context?, Store.chain, Store.chainUpTo, List.findSome?_cons, hentered.made, Option.bind_some, hid]
  refine ⟨id, hevolves.context? hfound, ?_⟩
  rw [Store.context, Array.getD_eq_getD_getElem?, hevolves.context id _ hcontext]
  rfl

theorem tailExprs_of_isEntered (hentered : IsEntered c head args env m t s' frame f) (hmade : Made t m.tail)
    (hlater : Later s' u) : u.tailExprs m.tail = t.tailExprs m.tail := by
  have hkept : Made s' m.tail := fun a ha => (hentered.adds.promises.kept a.value (hmade a ha)).1
  rw [hlater.tailExprs hkept, hentered.adds.promises.tailExprs hmade]

/-- In the frame of a call `enexprs` gives what the context has. -/
theorem ends_enexprs (hentered : IsEntered c head args env m t s' frame f) (hm : Matching.Matched c.params actuals m)
    (hmade : Made t m.tail) (htail : ∃ p ∈ c.params, p.name = tailName) (hnodup : (c.params.map (·.name)).Nodup)
    (hfree : ∀ a ∈ t.given c.params m, a.value.hasMarkers = false)
    (hlater : Later s' u) (hevolves : Evolves nothing s' u) (ev : Evaluator) :
    ∃ u', (Special.enexprs ev frame []).Ends u (.ok (.ofArgs (t.given c.params m ++ t.tailExprs m.tail))) u' := by
  obtain ⟨id, hfound, hcontext⟩ := context_of_isEntered hentered hevolves
  have hcontextTail : (u.store.context id).tail = some m.tail := by
    rw [hcontext]
    exact if_pos (Matching.isSome_tailPlace?.2 htail)
  have hgiven : Special.givenParams (u.store.context id) = (t.given c.params m).map (Arg.map Node.render) := by
    rw [hcontext, givenParams_callContext _ _ hnodup hm.length, State.given]
  have hquote : (quoteExpanding ev (u.store.context id).env (.list (Special.givenParams (u.store.context id)))).Ends u
      (.ok (.pairlist (t.given c.params m))) u := by
    have hnamed : ∀ a ∈ t.given c.params m, a.name ≠ none := fun a ha => (of_mem_givenExprs ha).1
    rw [hgiven, quoteExpanding_named hnamed hfree]
    exact ends_pure.2 ⟨rfl, rfl⟩
  have hrest : (tailExprs m.tail).Ends u (.ok (t.tailExprs m.tail)) u :=
    tailExprs_of_isEntered hentered hmade hlater ▸ ends_tailExprs m.tail
  let u' := u.logging (.capturedAll ((t.given c.params m).length + (t.tailExprs m.tail).length)
    (t.tailExprs m.tail).length)
  have hall : (captureAll ev (u.store.context id) (Special.givenParams (u.store.context id))).Ends u
      (.ok (t.given c.params m ++ t.tailExprs m.tail)) u' := by
    rw [captureAll_of_tail hcontextTail]
    refine ends_bind_ok.2 ⟨_, u, hquote, ends_bind_ok.2 ⟨_, u, hrest, ?_⟩⟩
    exact ends_record_bind.2 (ends_pure.2 ⟨rfl, rfl⟩)
  simp only [Special.enexprs, ends_contextOf_bind, ends_store_bind]
  exact ⟨u', id, hfound, ends_bind_ok.2 ⟨_, u', hall, ends_pure.2 ⟨rfl, rfl⟩⟩⟩

/-- In the frame of a call `...` is bound to the tail. -/
theorem get?_tail_of_isEntered (hentered : IsEntered c head args env m t s' frame f)
    (hm : Matching.Matched c.params actuals m) (htail : ∃ p ∈ c.params, p.name = tailName)
    (hnodup : (c.params.map (·.name)).Nodup) : s'.store.get? frame tailName = some (.tail m.tail) := by
  obtain ⟨param, hparam, hname⟩ := htail
  obtain ⟨i, hi⟩ := List.mem_iff_getElem?.1 hparam
  have hlast : ∀ (j : Nat) (q : Param), i < j → c.params[j]? = some q → q.name ≠ param.name := by
    intro j q hij hq hqname
    have hsame : (c.params.map (·.name))[i]? = (c.params.map (·.name))[j]? := by
      rw [List.getElem?_map, List.getElem?_map, hi, hq, Option.map_some, Option.map_some, hqname]
    have hlt : i < (c.params.map (·.name)).length := by
      rw [List.length_map]
      exact (List.getElem?_eq_some_iff.1 hi).1
    exact Nat.ne_of_lt hij ((List.getElem?_inj hlt hnodup).1 hsame)
  obtain ⟨b, hb, hbound⟩ := hentered.bound i param none hi (hm.slot_of_tail hi hname) hlast
  rw [hname] at hb
  cases hbound with
  | tail _ => exact Store.get?_of_binding hentered.made hb
  | default h _ _ _ _ | missing h _ => exact absurd hname h

/-! ## The call of `enexprs` -/

/-- In the body of a function with a tail `enexprs()` returns every expression that the call
supplied, once: first those for other parameters, under the names of the parameters and in their
order, then those of the tail as they are. Only missing arguments for parameters are left out.
Passing `...` on from the body supplies the expressions of the tail again. -/
theorem enexprs_returns_supplied (hs : TailsMade s) (head : Node) (htail : ∃ p ∈ c.params, p.name = tailName)
    (hnodup : (c.params.map (·.name)).Nodup) (hactuals : (delayArgs env args).Ends s (.ok actuals) t)
    (hmatchable : Matching.Matchable c.params actuals)
    (hfree : ∀ a ∈ s.supplied env args, a.value.hasMarkers = false) :
    ∃ frame s' m, (c.enter head args env).Ends s (.ok frame) s' ∧
      (∀ ev, (c.apply ev head args env).run.run s = (ev c.body frame).run.run s') ∧
      Matching.Matched c.params actuals m ∧ t.tailExprs actuals = s.supplied env args ∧
      (∀ d h u id name w, Later s' u → Evolves nothing s' u →
        (eval d h frame).Ends u (.ok (.function (.special id name .enexprs))) w → ∃ u',
          (eval (d + 1) (.call h []) frame).Ends u (.ok (.ofArgs (t.given c.params m ++ t.tailExprs m.tail))) u') ∧
      (t.tailExprs m.tail).Sublist (s.supplied env args) ∧
      ((t.given c.params m ++ t.tailExprs m.tail).map (·.value) ++ (t.slotExprs m).filter Node.isMissing).Perm
        ((s.supplied env args).map (·.value)) ∧
      ∀ u, Later s' u → u.store.get? frame tailName = s'.store.get? frame tailName →
        u.supplied frame [.unnamed (.symbol tailName)] = t.tailExprs m.tail := by
  rcases Matching.ofArgs_cases (fun p => (t.promise p).expr) c.params actuals with ⟨-, m, hok, hm⟩ | ⟨hnot, -⟩
  · obtain ⟨s', f, hends, hentered⟩ := exists_ends_enter head hactuals hok
    have hsupplied := tailExprs_of_ends_delayArgs hs hactuals
    have hmade : Made t m.tail := fun a ha =>
      (delays_of_ends_delayArgs hactuals).2 actuals rfl hs a (hm.mem_of_tail ha)
    have hgiven := hasMarkers_of_mem_given hm (hsupplied ▸ hfree)
    refine ⟨t.store.frames.size, s', m, hends, fun ev => ?_, hm, hsupplied,
      fun d h u id name w hlater hevolves hhead => ?_, ?_, ?_, fun u hlater hget => ?_⟩
    · rw [Closure.apply_eq_enter, run_bind_of_ends hends]
    · have hlater' : Later s' (w.logging (.calling h 0)) :=
        (hlater.trans (later_of_ends_eval hhead)).trans (.of_promises_eq rfl)
      have hevolves' : Evolves nothing s' (w.logging (.calling h 0)) :=
        (hevolves.trans (evolves_of_ends_eval hhead)).trans (.of_frames_eq rfl rfl (Nat.le_refl _))
      obtain ⟨u', hcaptured⟩ := ends_enexprs hentered hm hmade htail hnodup hgiven hlater' hevolves' (eval d)
      exact ⟨u', ends_bind_ok.2 ⟨_, w, hhead, ends_record_bind.2 hcaptured⟩⟩
    · exact hsupplied ▸ hm.tail_sublist.map _
    · exact hsupplied ▸ supplied_perm t hm
    · have hforwarded : u.forwarded t.store.frames.size = u.tailExprs m.tail :=
        State.forwarded_of_tail (hget.trans (get?_tail_of_isEntered hentered hm htail hnodup))
      rw [← tailExprs_of_isEntered hentered hmade hlater, ← hforwarded]
      exact List.append_nil _
  · exact absurd hmatchable hnot

/-- Where `...` stands for `b`, a missing argument and `w = e`, the call `f(z = a, ...)` supplies `x`,
`y` and `z`, and what is left is the tail. The missing argument for `y` is left out. -/
theorem enexprs_returns_supplied_forwarded :
    let f : Closure := ⟨[⟨"x", none⟩, ⟨"y", none⟩, ⟨tailName, none⟩, ⟨"z", none⟩], .call (.symbol "enexprs") [], 0⟩
    let args : List (Arg Node) := [.named "z" (.symbol "a"), .unnamed (.symbol tailName)]
    ∃ s s' u', s.forwarded 0 = [.unnamed (.symbol "b"), .unnamed .missing, .named "w" (.symbol "e")] ∧
      (f.enter (.symbol "f") args 0).Ends s (.ok 1) s' ∧
      (eval 2 f.body 1).Ends s' (.ok (.list [.named "x" (.lang (.symbol "b")), .named "z" (.lang (.symbol "a")),
        .named "w" (.lang (.symbol "e"))])) u' := by
  intro f args
  let bindings : List (String × Binding) := [("enexprs", .value (.function (.special 0 "enexprs" .enexprs))),
    (tailName, .tail [.unnamed 0, .unnamed 1, .named "w" 2])]
  let promises : Array Promise := #[⟨.symbol "b", 0, none, false⟩, ⟨.missing, 0, none, false⟩,
    ⟨.symbol "e", 0, none, false⟩]
  let s : State := { State.empty with store := ⟨#[⟨none, bindings, none⟩], promises, #[], 0⟩ }
  let actuals : List (Arg PromiseId) := [.named "z" 3, .unnamed 0, .unnamed 1, .named "w" 2]
  let t : State := { s with store := (s.store.newPromise (.symbol "a") 0).2 }
  let frame : Frame := ⟨some 0, [("x", .promise 0), ("y", .promise 1), (tailName, .tail [.named "w" 2]),
    ("z", .promise 3)], some 0⟩
  let context : Context := ⟨.symbol "f", args, 0, [("x", .symbol "b"), ("y", .missing), ("z", .symbol "a")],
    some [.named "w" 2]⟩
  let s' : State := { t with store := { t.store with
    frames := t.store.frames.push frame, contexts := #[context] } }.logging (.entering f.body)
  have hs : TailsMade s := by
    refine ⟨fun id g name tail hg hb => ?_, fun id c tail hc _ => by cases hc⟩
    have hmem : g ∈ (#[⟨none, bindings, none⟩] : Array Frame) := Array.mem_of_getElem? hg
    rw [Array.mem_singleton.1 hmem] at hb
    have hbinding := mem_of_lookup_eq_some hb
    simp only [bindings, List.mem_cons, Prod.mk.injEq, reduceCtorEq, and_false, Binding.tail.injEq, List.not_mem_nil,
      or_false, false_or] at hbinding
    rw [hbinding.2]
    simp [Made, Arg.unnamed, Arg.named, State.HasPromise, s, promises]
  have hforwarded : s.forwarded 0 = [.unnamed (.symbol "b"), .unnamed .missing, .named "w" (.symbol "e")] := rfl
  have hactuals : (delayArgs 0 args).Ends s (.ok actuals) t := rfl
  have hentered : (f.enter (.symbol "f") args 0).Ends s (.ok 1) s' := rfl
  have hok : Matching.ofArgs (fun p => (t.promise p).expr) f.params actuals =
      .ok ⟨[some 0, some 1, none, some 3], [.named "w" 2]⟩ := rfl
  have hmatched := Matching.ofArgs_eq_ok_iff.1 hok
  have hfree : ∀ a ∈ s.supplied 0 args, a.value.hasMarkers = false := by
    have hsupplied : s.supplied 0 args = [.named "z" (.symbol "a"), .unnamed (.symbol "b"), .unnamed .missing,
      .named "w" (.symbol "e")] := rfl
    simp [hsupplied, Arg.named, Arg.unnamed, Node.missing, Node.hasMarkers]
  obtain ⟨id, s₁, m, henter, _, hm, _, hcaptured, _⟩ := enexprs_returns_supplied hs (.symbol "f")
    ⟨_, .tail _ (.tail _ (.head _)), rfl⟩ (by decide) hactuals hmatched.1 hfree
  obtain ⟨hid, rfl⟩ := henter.unique hentered
  cases hid
  obtain rfl := hm.unique hmatched.2
  have hget : s'.store.get? 1 "enexprs" = some (.value (.function (.special 0 "enexprs" .enexprs))) := rfl
  obtain ⟨u', hu'⟩ := hcaptured 1 _ s' 0 "enexprs" s' (.refl _) (.refl _) (ends_eval_of_value rfl hget 0)
  exact ⟨s, s', u', hforwarded, hentered, hu'⟩

end

end Quotation
