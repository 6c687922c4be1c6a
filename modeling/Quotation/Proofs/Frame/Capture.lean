import Quotation.Proofs.Frame.Sparing
import Quotation.Proofs.Template.Sources
/-!
# What is captured stays

The body of a function captures what the caller wrote. The context of the call is found again
in every later state, so parameters may be forced and assigned to without changing what is
captured (`evaluation_grows_frames`). What evaluation changes are the values that markers in the
expressions for the parameters are filled with, each time all of them are captured.
-/

namespace Quotation

variable {forbidden : FrameId → String → Value → Prop} {s s' : State}

/-! ## Contexts are found again -/

/-- A context with something in it has been made. -/
theorem Store.getElem?_context {store : Store} {id : ContextId}
    (hc : (store.context id).params ≠ [] ∨ (store.context id).tail ≠ none) :
    store.contexts[id]? = some (store.context id) := by
  cases hget : store.contexts[id]? with
  | none => simp [Store.context, Array.getD_eq_getD_getElem?, hget] at hc
  | some c => simp [Store.context, Array.getD_eq_getD_getElem?, hget]

namespace Evolves

/-- A frame that knows its context is found again, on the way from any frame. -/
theorem findSome?_context (h : Evolves forbidden s s') {id : ContextId} : ∀ (n : Nat) (env : FrameId),
    (s.store.chainUpTo n env).findSome? (fun f => s.store.frames[f]?.bind (·.context)) = some id →
    (s'.store.chainUpTo n env).findSome? (fun f => s'.store.frames[f]?.bind (·.context)) = some id
  | 0, _, hid => by cases hid
  | n + 1, env, hid => by
    rw [Store.chainUpTo, List.findSome?_cons] at hid ⊢
    cases hf : s.store.frames[env]? with
    | none =>
      -- a frame that is not there ends the way
      simp [hf, Store.parent?] at hid
    | some f =>
      obtain ⟨f', hf', hgrown⟩ := h.frame env f hf
      have hparent : s'.store.parent? env = s.store.parent? env := by
        simp [Store.parent?, hf, hf', hgrown.parent]
      simp only [hf, hf', Option.bind_some, hgrown.context, hparent] at hid ⊢
      cases hcontext : f.context with
      | some c => rwa [hcontext] at hid
      | none =>
        rw [hcontext] at hid
        dsimp only at hid ⊢
        cases hp : s.store.parent? env with
        | none => simp [hp] at hid
        | some p =>
          rw [hp] at hid
          exact findSome?_context h n p hid

theorem context? (h : Evolves forbidden s s') {env : FrameId} {id : ContextId} (hid : s.store.context? env = some id) :
    s'.store.context? env = some id :=
  h.findSome?_context (env + 1) env hid

/-- A context with something in it stays as it is. -/
theorem context_eq (h : Evolves forbidden s s') {id : ContextId}
    (hc : (s.store.context id).params ≠ [] ∨ (s.store.context id).tail ≠ none) :
    s'.store.context id = s.store.context id := by
  have hget := h.context id _ (Store.getElem?_context hc)
  rw [Store.context, Array.getD_eq_getD_getElem?, hget]
  rfl

end Evolves

/-! ## One argument -/

section
open Run

variable {ev : Evaluator} {env : FrameId} {v : Value}

theorem ends_contextOf_bind {α : Type} {f : ContextId → Run α} {a : α} :
    (contextOf env >>= f).Ends s (.ok a) s' ↔ ∃ id, s.store.context? env = some id ∧ (f id).Ends s (.ok a) s' := by
  rw [ends_bind_ok]
  simp only [contextOf, ends_store_bind]
  cases hid : s.store.context? env with
  | none => simp
  | some id => simp [and_assoc]

theorem ends_ofExcept_bind_ok {α β : Type} {x : Except Error α} {f : α → Run β} {b : β} :
    (Run.ofExcept x >>= f).Ends s (.ok b) s' ↔ ∃ a, x = .ok a ∧ (f a).Ends s (.ok b) s' := by
  rw [ends_ofExcept_bind]
  cases x with
  | error e => simp
  | ok a => simp

/-- What is captured for a parameter is the expression in the context of the call. -/
theorem ends_enexpr_ok {args : List (Arg Node)} : (Special.enexpr env args).Ends s (.ok v) s' ↔
    ∃ n name id expr, Special.single "enexpr" args = .ok n ∧ Special.parameterName n = .ok name ∧
      s.store.context? env = some id ∧ (s.store.context id).parameter? name = some expr ∧ v = .ofNode expr ∧
      s' = s.logging (.captured expr name) := by
  simp only [Special.enexpr, ends_ofExcept_bind_ok, ends_contextOf_bind, ends_store_bind]
  constructor
  · rintro ⟨n, hn, name, hname, id, hid, h⟩
    obtain ⟨expr, t, hexpr, h⟩ := ends_bind_ok.1 h
    obtain ⟨hv, rfl⟩ := ends_pure.1 h
    unfold captureArgument at hexpr
    split at hexpr
    · rename_i expr' hparam
      rw [ends_record_bind] at hexpr
      obtain ⟨hok, rfl⟩ := ends_pure.1 hexpr
      cases hok
      cases hv
      exact ⟨n, name, id, expr, hn, hname, hid, hparam, rfl, rfl⟩
    · cases (ends_fail.1 hexpr).1
  · rintro ⟨n, name, id, expr, hn, hname, hid, hparam, rfl, rfl⟩
    refine ⟨n, hn, name, hname, id, hid, ends_bind_ok.2 ⟨expr, s.logging (.captured expr name), ?_, ?_⟩⟩
    · rw [captureArgument, hparam]
      exact ends_record_bind.2 (ends_pure.2 ⟨rfl, rfl⟩)
    · exact ends_pure.2 ⟨rfl, rfl⟩

/-- The same is captured for a parameter later. -/
theorem enexpr_kept (h : Evolves forbidden s s') {args : List (Arg Node)} {t : State}
    (hv : (Special.enexpr env args).Ends s (.ok v) t) : ∃ t', (Special.enexpr env args).Ends s' (.ok v) t' := by
  obtain ⟨n, name, id, expr, hn, hname, hid, hparam, rfl, rfl⟩ := ends_enexpr_ok.1 hv
  have hsame : s'.store.context id = s.store.context id := by
    refine h.context_eq (.inl fun hnone => ?_)
    rw [Context.parameter?, hnone] at hparam
    cases hparam
  exact ⟨_, ends_enexpr_ok.2 ⟨n, name, id, expr, hn, hname, h.context? hid, hsame ▸ hparam, rfl, rfl⟩⟩

/-! ## All arguments -/

/-- Whether the expressions given for parameters are without markers. -/
def Context.IsMarkerless (c : Context) : Prop :=
  ∃ t, Template.ofSyntax (.list (Special.givenParams c)) = .ok t ∧ t.sources = []

theorem closed_quoteExpanding {x : Syntax} {t : Template} (ht : Template.ofSyntax x = .ok t) (hnone : t.sources = []) :
    Closed fun ev env => quoteExpanding ev env x := by
  obtain ⟨r, hr⟩ := @closed_node {} [] 0 t (List.map_eq_nil_iff.1 hnone)
  refine ⟨r, fun ev env => ?_⟩
  unfold quoteExpanding
  rw [ht]
  exact hr ev env

/-- The expressions in a tail, as they are in a state. -/
def State.tailExprs (s : State) (tail : List (Arg PromiseId)) : List (Arg Node) :=
  tail.map (Arg.map fun id => (s.promise id).expr)

/-- The expressions of a tail stay, once its promises have been made. -/
theorem Later.tailExprs (h : Later s s') {tail : List (Arg PromiseId)} (hmade : Made s tail) :
    s'.tailExprs tail = s.tailExprs tail :=
  List.map_congr_left fun a ha => by rw [Arg.map, Arg.map, (h.same a.value (hmade a ha)).1]

/-- What is captured are the explicit arguments, filled in, and then the expressions in the tail. -/
theorem captureAll_of_tail {c : Context} {tail : List (Arg PromiseId)} (htail : c.tail = some tail) (ev : Evaluator)
    (explicit : List (Arg Syntax)) : captureAll ev c explicit = (do
      let n ← quoteExpanding ev c.env (.list explicit)
      let rest ← tailExprs tail
      Run.record (.capturedAll ((n.pairlist?.getD []).length + rest.length) rest.length)
      return n.pairlist?.getD [] ++ rest) := by
  unfold captureAll
  rw [htail]
  refine bind_congr fun n => ?_
  cases n <;> rfl

/-- Where explicit arguments are filled in alike everywhere, all that is captured depends on the state
by the tail only. -/
theorem exists_captured {c : Context} {explicit : List (Arg Syntax)} {as : List (Arg Node)}
    (hclosed : Closed fun ev env => quoteExpanding ev env (.list explicit))
    (h : (captureAll ev c explicit).Ends s (.ok as) s') : ∃ first tail, c.tail = some tail ∧
      as = first ++ s.tailExprs tail ∧
      ∀ ev' t, ∃ t', (captureAll ev' c explicit).Ends t (.ok (first ++ t.tailExprs tail)) t' := by
  obtain ⟨r, hr⟩ := hclosed
  cases htail : c.tail with
  | none =>
    rw [captureAll, htail] at h
    cases (ends_fail.1 h).1
  | some tail =>
    simp only [captureAll_of_tail htail, hr, tailExprs, bind_assoc, pure_bind, ends_ofExcept_bind_ok, ends_store_bind,
      ends_record_bind, ends_pure] at h ⊢
    obtain ⟨n, rfl, has, _⟩ := h
    cases has
    exact ⟨_, tail, rfl, rfl, fun ev' t => ⟨_, n, rfl, rfl, rfl⟩⟩

/-- The same is captured for all parameters later, if there are no markers in what was given for
them. -/
theorem enexprs_kept (h : Evolves forbidden s s') (hlater : Later s s') (hs : TailsMade s) {id : ContextId}
    (hid : s.store.context? env = some id) (hnone : (s.store.context id).IsMarkerless) {t : State}
    (hv : (Special.enexprs ev env []).Ends s (.ok v) t) (ev' : Evaluator) :
    ∃ t', (Special.enexprs ev' env []).Ends s' (.ok v) t' := by
  obtain ⟨template, htemplate, hsources⟩ := hnone
  simp only [Special.enexprs, ends_contextOf_bind, ends_store_bind] at hv ⊢
  obtain ⟨_, hid', hv⟩ := hv
  rw [hid] at hid'
  cases hid'
  obtain ⟨as, u, has, hv⟩ := ends_bind_ok.1 hv
  obtain ⟨hv, rfl⟩ := ends_pure.1 hv
  cases hv
  obtain ⟨first, tail, htail, rfl, hagain⟩ := exists_captured (closed_quoteExpanding htemplate hsources) has
  have hsome : (s.store.context id).tail ≠ none := by simp [htail]
  have hmade : Made s tail := hs.context id _ tail (Store.getElem?_context (.inr hsome)) htail
  -- Only the tail is read anew, and its promises keep their expressions.
  obtain ⟨t', ht'⟩ := hagain ev' s'
  rw [hlater.tailExprs hmade] at ht'
  exact ⟨t', id, h.context? hid, ends_bind_ok.2 ⟨_, t', h.context_eq (.inr hsome) ▸ ht', ends_pure.2 ⟨rfl, rfl⟩⟩⟩

/-! ## Evaluation -/

/-- Evaluation only ever grows environments. Whatever it ends with, a frame that was there has the
same parent and the same calling context afterwards, and every name bound in it is still bound. A
binding that is new or another one is a value that `<-` put there: evaluation that is cut off before
that assignment does not end. What a body captures for one parameter is the same afterwards, and
what it captures for all of them is too, unless markers are to be filled in. -/
theorem evaluation_grows_frames {depth : Nat} {x : Node} {r : Except Error Value} (hs : TailsMade s)
    (h : (eval depth x env).Ends s r s') :
    TailsMade s' ∧
    (∀ (id : FrameId) (f : Frame), s.store.frames[id]? = some f → ∃ f' : Frame, s'.store.frames[id]? = some f' ∧
      f'.parent = f.parent ∧ f'.context = f.context ∧
      (∀ name, (f.binding? name).isSome = true → (f'.binding? name).isSome = true) ∧
      ∀ name, f'.binding? name ≠ f.binding? name → ∃ v, f'.binding? name = some (.value v) ∧
        ∀ r t, ¬ (evalSparing (only id name v) depth x env).Ends s r t) ∧
    (∀ (id : ContextId) (c : Context), s.store.contexts[id]? = some c → s'.store.contexts[id]? = some c) ∧
    (∀ body args v t, (Special.enexpr body args).Ends s (.ok v) t →
      ∃ t', (Special.enexpr body args).Ends s' (.ok v) t') ∧
    ∀ body id v t ev, s.store.context? body = some id → (s.store.context id).IsMarkerless →
      (Special.enexprs ev body []).Ends s (.ok v) t →
      ∀ ev', ∃ t', (Special.enexprs ev' body []).Ends s' (.ok v) t' := by
  have hevolves := evolves_of_ends_eval h
  refine ⟨hevolves.tails hs, fun id f hf => ?_, hevolves.context, fun body args v t => enexpr_kept hevolves,
    fun body id v t ev hid hnone hv => enexprs_kept hevolves (later_of_ends_eval h) hs hid hnone hv⟩
  obtain ⟨f', hf', hgrown⟩ := hevolves.frame id f hf
  refine ⟨f', hf', hgrown.parent, hgrown.context, fun name hbound => ?_,
    fun name => exists_value_of_changed h hf hf'⟩
  rcases hgrown.binding name with hsame | ⟨v, hv, _⟩
  · rwa [hsame]
  · rw [hv]
    rfl

theorem mem_of_lookup_eq_some {α : Type} {entries : List (String × α)} {name : String} {a : α}
    (h : entries.lookup name = some a) : (name, a) ∈ entries := by
  obtain ⟨before, behind, rfl, -⟩ := List.lookup_eq_some_iff.1 h
  exact List.mem_append_right _ List.mem_cons_self

theorem tailsMade_ofBindings {bindings : List (String × Binding)} (h : ∀ b ∈ bindings, ∃ v, b.2 = .value v) :
    TailsMade (State.ofBindings bindings) where
  frame id f name tail hf hb := by
    have hmem : f ∈ (#[⟨none, bindings, none⟩] : Array Frame) := Array.mem_of_getElem? hf
    rw [Array.mem_singleton.1 hmem] at hb
    obtain ⟨v, hv⟩ := h (name, .tail tail) (mem_of_lookup_eq_some hb)
    cases hv
  context id c tail hc := by cases hc

/-- In the body of `f(a)` the parameter `x` is assigned to, and still captured as `a`. -/
theorem evaluation_grows_frames_reassigned : ∃ s s',
    (Closure.enter ⟨[⟨"x", none⟩, ⟨tailName, none⟩], .missing, 0⟩ (.symbol "f") [.unnamed (.symbol "a")] 0).Ends
      (State.ofBindings [("<-", .value (.function (.special 0 "<-" .assign)))]) (.ok 1) s ∧
    (eval 3 (.call (.symbol "<-") [.unnamed (.symbol "x"), .unnamed (.const (.number (.int 2)))]) 1).Ends s
      (.ok (.ofInt 2)) s' ∧
    (∃ t, (Special.enexpr 1 [.unnamed (.symbol "x")]).Ends s' (.ok (.lang (.symbol "a"))) t) ∧
    ∃ t, (Special.enexprs (eval 0) 1 []).Ends s' (.ok (.list [.named "x" (.lang (.symbol "a"))])) t := by
  let start := State.ofBindings [("<-", .value (.function (.special 0 "<-" .assign)))]
  let entered := Closure.enter ⟨[⟨"x", none⟩, ⟨tailName, none⟩], .missing, 0⟩ (.symbol "f") [.unnamed (.symbol "a")] 0
  let assigned := eval 3 (.call (.symbol "<-") [.unnamed (.symbol "x"), .unnamed (.const (.number (.int 2)))]) 1
  let s := ((entered.run.run start).map (·.2)).getD start
  let s' := ((assigned.run.run s).map (·.2)).getD s
  have henter : entered.Ends start (.ok 1) s := rfl
  have heval : assigned.Ends s (.ok (.ofInt 2)) s' := rfl
  have hstart : TailsMade start := tailsMade_ofBindings (by simp)
  obtain ⟨-, -, -, henexpr, henexprs⟩ :=
    evaluation_grows_frames (tailsMade_of_ends_enter henter hstart) heval
  have hx : (Special.enexpr 1 [.unnamed (.symbol "x")]).Ends s (.ok (.lang (.symbol "a")))
    (s.logging (.captured (.symbol "a") "x")) := rfl
  have hall : (Special.enexprs (eval 0) 1 []).Ends s (.ok (.list [.named "x" (.lang (.symbol "a"))]))
    (s.logging (.capturedAll 1 0)) := rfl
  exact ⟨s, s', henter, heval, henexpr _ _ _ _ hx, henexprs 1 0 _ _ (eval 0) rfl ⟨_, rfl, rfl⟩ hall (eval 0)⟩

/-- In the body of `f(!!y, y <- 2)` what is captured changes when the second parameter is forced, as
the marker of the first one is filled in again. -/
theorem not_kept_of_marker : ∃ s t u t' v w,
    (Closure.enter ⟨[⟨"x", none⟩, ⟨"z", none⟩, ⟨tailName, none⟩], .missing, 0⟩ (.symbol "f")
      [.unnamed (.call (.symbol "!!") [.unnamed (.symbol "y")]),
        .unnamed (.call (.symbol "<-") [.unnamed (.symbol "y"), .unnamed (.const (.number (.int 2)))])] 0).Ends
      (State.ofBindings [("y", .value (.ofInt 1)), ("<-", .value (.function (.special 0 "<-" .assign)))]) (.ok 1) s ∧
    (Special.enexprs (eval 3) 1 []).Ends s (.ok v) t ∧ (eval 4 (.symbol "z") 1).Ends t (.ok (.ofInt 2)) u ∧
    (Special.enexprs (eval 3) 1 []).Ends u (.ok w) t' ∧ v ≠ w := by
  let captured (n : Int64) : Value := .list [.named "x" (.ofInt n), .named "z" (.lang (.call (.symbol "<-")
    [.unnamed (.symbol "y"), .unnamed (.const (.number (.int 2)))]))]
  refine ⟨_, _, _, _, captured 1, captured 2, rfl, rfl, rfl, rfl, fun h => ?_⟩
  have hdiffer : (captured 1).same (captured 2) = false := rfl
  have hsame : (captured 2).same (captured 2) = true := rfl
  rw [h, hsame] at hdiffer
  cases hdiffer

end

end Quotation
