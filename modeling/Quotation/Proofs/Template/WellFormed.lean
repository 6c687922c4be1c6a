import Quotation.Proofs.Template.Conversion
import Quotation.Proofs.Template.Hole
import Quotation.Proofs.Template.Sources
/-!
# What expansion can put at the head of a call

A node is well-formed if the head of each call in it is one that a checked construction
admits. Expansion puts its calls together without a check wherever the head is plain.
The calls it makes are well-formed all the same if the plain parts of the template are,
and if all that its sources evaluate to is (`expand_wellFormed`).
-/

namespace Quotation

/-! ## Well-formed nodes and templates -/

namespace Node

mutual
/-- The head of each call is a symbol with a name, or a call. -/
def isWellFormed : Node → Bool
  | const _ => true
  | symbol _ => true
  | call head args => head.isHead && head.isWellFormed && areWellFormed args
  | pairlist args => areWellFormed args

def areWellFormed : List (Arg Node) → Bool
  | [] => true
  | a :: as => a.value.isWellFormed && areWellFormed as
end

theorem areWellFormed_iff {args : List (Arg Node)} :
    areWellFormed args = true ↔ ∀ a ∈ args, a.value.isWellFormed = true := by
  induction args with
  | nil => simp [areWellFormed]
  | cons a as ih => simp [areWellFormed, ih]

theorem areWellFormed_append {as bs : List (Arg Node)} (ha : areWellFormed as = true) (hb : areWellFormed bs = true) :
    areWellFormed (as ++ bs) = true := by
  rw [areWellFormed_iff] at *
  intro a h
  exact (List.mem_append.1 h).elim (ha a) (hb a)

end Node

namespace Template

mutual
/-- The plain nodes are well-formed, and so is each call with a plain head. -/
def isWellFormed : Template → Bool
  | node n => n.isWellFormed
  | single _ => true
  | call head args => head.plain?.all Node.isHead && head.isWellFormed && partsWellFormed args
  | pairlist args => partsWellFormed args

def partsWellFormed : List (Part Template) → Bool
  | [] => true
  | .arg _ value :: rest => value.isWellFormed && partsWellFormed rest
  | .splice _ :: rest => partsWellFormed rest
  | .define _ value :: rest => value.isWellFormed && partsWellFormed rest
end

end Template

/-! ## What sources evaluate to -/

/-- What the value stands for at the marker is well-formed. A name has nothing to it. -/
def Marker.Admits (m : Marker) (v : Value) : Prop :=
  match m.kind with
  | .node => ∀ n, v.toNode? = some n → n.isWellFormed = true
  | .arguments => ∀ args, v.SplicesTo args → Node.areWellFormed args = true
  | .name => True

open Marker Run

/-- Each source gives a value that its marker admits, from the state that the sources
before it lead to. -/
def GivesWellFormed (ev : Evaluator) (env : FrameId) (ms : List Marker) (s : State) : Prop :=
  ∀ done m t v u, done ++ [m] <+: ms → (evaluateAll ev env done).Ends s (.ok ()) t →
    (m.evaluate ev env).Ends t (.ok v) u → m.Admits v

variable {ev : Evaluator} {env : FrameId} {options : ExpandOptions} {s s' : State}

theorem GivesWellFormed.left {ms ns : List Marker} (h : GivesWellFormed ev env (ms ++ ns) s) :
    GivesWellFormed ev env ms s :=
  fun done m t v u hpre => h done m t v u (hpre.trans (List.prefix_append ms ns))

theorem GivesWellFormed.right {ms ns : List Marker} {t : State} (h : GivesWellFormed ev env (ms ++ ns) s)
    (hms : (evaluateAll ev env ms).Ends s (.ok ()) t) : GivesWellFormed ev env ns t := by
  intro done m t' v u hpre hdone hm
  refine h (ms ++ done) m t' v u ?_ ?_ hm
  · rw [List.append_assoc]
    exact (List.prefix_append_right_inj ms).2 hpre
  · rw [evaluateAll_append]
    exact ends_bind_ok.2 ⟨(), t, hms, hdone⟩

theorem GivesWellFormed.head {m : Marker} {ms : List Marker} {v : Value} {t : State}
    (h : GivesWellFormed ev env (m :: ms) s) (hm : (m.evaluate ev env).Ends s (.ok v) t) :
    m.Admits v ∧ GivesWellFormed ev env ms t := by
  have hfirst : (evaluateAll ev env [m]).Ends s (.ok ()) t :=
    ends_evaluateAll_cons.2 ⟨v, t, hm, ends_pure.2 ⟨rfl, rfl⟩⟩
  exact ⟨h [] m s v t (by simp) (ends_pure.2 ⟨rfl, rfl⟩) hm, h.right hfirst⟩

theorem GivesWellFormed.nil : GivesWellFormed ev env [] s := by
  intro done m t v u hpre
  simp at hpre

theorem GivesWellFormed.cons {m : Marker} {ms : List Marker} {v : Value} {t : State}
    (hm : (m.evaluate ev env).Ends s (.ok v) t) (hv : m.Admits v) (h : GivesWellFormed ev env ms t) :
    GivesWellFormed ev env (m :: ms) s := by
  intro done m' t' v' u hpre hdone hm'
  cases done with
  | nil =>
    obtain ⟨rfl, -⟩ := List.cons_prefix_cons.1 hpre
    obtain ⟨-, rfl⟩ := ends_pure.1 hdone
    obtain ⟨hvv, -⟩ := hm.unique hm'
    cases hvv
    exact hv
  | cons d ds =>
    obtain ⟨rfl, htail⟩ := List.cons_prefix_cons.1 hpre
    obtain ⟨w, x, hd, hds⟩ := ends_evaluateAll_cons.1 hdone
    obtain ⟨-, rfl⟩ := hm.unique hd
    exact h ds m' t' v' u htail hds hm'

/-! ## Expansion -/

theorem evaluate_of_ends_unquote {source n : Node} {path : Path}
    (h : (Expand.unquote ev env source path).Ends s (.ok n) s') :
    ∃ v, (evaluate ev env ⟨.node, path, source⟩).Ends s (.ok v) s' ∧ v.toNode? = some n := by
  obtain ⟨v, hv, hn⟩ := Expand.ends_unquote_ok.1 h
  exact ⟨v, ends_record_bind.2 hv, hn⟩

theorem evaluate_of_ends_splice {source : Node} {path : Path} {as : List (Arg Node)}
    (h : (Expand.splice ev env options source path).Ends s (.ok as) s') :
    ∃ v, (evaluate ev env ⟨.arguments, path, source⟩).Ends s (.ok v) s' ∧ v.SplicesTo as := by
  obtain ⟨v, hv, has⟩ := Expand.splicesTo_of_ends_splice h
  exact ⟨v, ends_record_bind.2 hv, has⟩

mutual
theorem isWellFormed_of_node {path : Path} {depth : Nat} : ∀ {t : Template} {s s' : State} {n : Node},
    t.isWellFormed = true → GivesWellFormed ev env (t.markersAt path) s →
    (Expand.node ev env options path depth t).Ends s (.ok n) s' → n.isWellFormed = true
  | .node m, s, s', n, ht, _, h => by
    obtain ⟨-, rfl, -⟩ := Expand.ends_node_ok.1 h
    exact ht
  | .single source, s, s', n, _, hv, h => by
    obtain ⟨v, hsource, hn⟩ := evaluate_of_ends_unquote (Expand.ends_single_ok.1 h).2
    exact (hv.head hsource).1 n hn
  | .call head args, s, s', n, ht, hv, h => by
    obtain ⟨-, hd, t, as, hhead, hcheck, hargs, rfl⟩ := Expand.ends_call_ok.1 h
    simp only [Template.isWellFormed, Bool.and_eq_true] at ht
    have hwell : hd.isWellFormed = true := isWellFormed_of_node ht.1.2 hv.left hhead
    have hwells : Node.areWellFormed as = true :=
      areWellFormed_of_argList ht.2 (hv.right (ends_evaluateAll_of_node hhead)) hargs
    -- A plain head is the head of the call, and any other has been checked.
    have hishead : hd.isHead = true := by
      cases head with
      | node m =>
        obtain ⟨-, rfl, -⟩ := Expand.ends_node_ok.1 hhead
        exact ht.1.1
      | single | call | pairlist => exact hcheck rfl
    simp [Node.isWellFormed, hishead, hwell, hwells]
  | .pairlist args, s, s', n, ht, hv, h => by
    obtain ⟨as, hargs, rfl⟩ := Expand.ends_pairlist_ok h
    exact areWellFormed_of_argList ht hv hargs

theorem areWellFormed_of_argList {path : Path} {depth i : Nat} :
    ∀ {parts : List (Part Template)} {s s' : State} {as : List (Arg Node)},
    Template.partsWellFormed parts = true → GivesWellFormed ev env (Template.partMarkers path i parts) s →
    (Expand.argList ev env options path depth i parts).Ends s (.ok as) s' → Node.areWellFormed as = true
  | [], s, s', as, _, _, h => by
    simp only [Expand.argList, ends_pure, Except.ok.injEq] at h
    rw [h.1]
    rfl
  | .arg name value :: rest, s, s', as, hparts, hv, h => by
    simp only [Expand.argList, ends_bind_ok, ends_pure] at h
    obtain ⟨n, t, hn, bs, u, hbs, has, rfl⟩ := h
    cases has
    simp only [Template.partsWellFormed, Bool.and_eq_true] at hparts
    have hvalue : n.isWellFormed = true := isWellFormed_of_node hparts.1 hv.left hn
    have hrest : Node.areWellFormed bs = true :=
      areWellFormed_of_argList hparts.2 (hv.right (ends_evaluateAll_of_node hn)) hbs
    simp [Node.areWellFormed, hvalue, hrest]
  | .splice source :: rest, s, s', as, hparts, hv, h => by
    simp only [Expand.argList, ends_bind_ok, ends_pure] at h
    obtain ⟨bs, t, hsplice, cs, u, hcs, has, rfl⟩ := h
    cases has
    simp only [Template.partsWellFormed] at hparts
    obtain ⟨v, hsource, hbs⟩ := evaluate_of_ends_splice hsplice
    obtain ⟨hadmits, hv⟩ := hv.head hsource
    exact Node.areWellFormed_append (hadmits bs hbs) (areWellFormed_of_argList hparts hv hcs)
  | .define nameSource value :: rest, s, s', as, hparts, hv, h => by
    simp only [Expand.argList, ends_bind_ok, ends_pure] at h
    obtain ⟨name, t, hname, n, u, hn, bs, w, hbs, has, rfl⟩ := h
    cases has
    simp only [Template.partsWellFormed, Bool.and_eq_true] at hparts
    obtain ⟨v, hsource, -⟩ := Expand.ends_definitionName_ok.1 hname
    have hm : (evaluate ev env ⟨.name, path ++ [.name i], nameSource⟩).Ends s (.ok v) t := hsource
    obtain ⟨-, hv⟩ := hv.head hm
    have hvalue : n.isWellFormed = true := isWellFormed_of_node hparts.1 hv.left hn
    have hrest : Node.areWellFormed bs = true :=
      areWellFormed_of_argList hparts.2 (hv.right (ends_evaluateAll_of_node hn)) hbs
    simp [Arg.named, Node.areWellFormed, hvalue, hrest]
end

/-- An expansion gives a well-formed node if its template is well-formed and its sources give
well-formed nodes. The sources themselves may be anything. -/
theorem expand_wellFormed {t : Template} {n : Node} (ht : t.isWellFormed = true)
    (hv : GivesWellFormed ev env t.markers s) (h : (expand ev env options t).Ends s (.ok n) s') :
    n.isWellFormed = true :=
  isWellFormed_of_node ht hv h

/-- In `(!!f)(!!!xs, h())` the name `f` stands for a symbol and `xs` has one call in it. -/
theorem expand_wellFormed_call : ∃ (t : Template) (s s' : State) (n : Node),
    t.isWellFormed = true ∧ GivesWellFormed (eval 2) 0 t.markers s ∧
      (expand (eval 2) 0 {} t).Ends s (.ok n) s' ∧ n.isWellFormed = true := by
  let k : Node := .call (.symbol "k") []
  let t : Template := .call (.single (.symbol "f"))
    [.splice (.symbol "xs"), .unnamed (.node (.call (.symbol "h") []))]
  let s := State.ofBindings [("f", .value (.lang (.symbol "g"))), ("xs", .value (.list [⟨none, .lang k⟩]))]
  have hf : (evaluate (eval 2) 0 ⟨.node, [.head], .symbol "f"⟩).Ends s (.ok (.lang (.symbol "g")))
      (s.logging (.unquoting (.symbol "f") [.head])) := rfl
  have hxs : (evaluate (eval 2) 0 ⟨.arguments, [.arg 0], .symbol "xs"⟩).Ends
      (s.logging (.unquoting (.symbol "f") [.head])) (.ok (.list [⟨none, .lang k⟩]))
      ((s.logging (.unquoting (.symbol "f") [.head])).logging (.splicing (.symbol "xs") [.arg 0])) := rfl
  have ht : t.isWellFormed = true := rfl
  have hv : GivesWellFormed (eval 2) 0 t.markers s := by
    refine .cons hf (fun n hn => ?_) (.cons hxs (fun args hargs => ?_) .nil)
    · cases hn
      rfl
    · cases hargs with
      | list values names =>
        rcases args with _ | ⟨a, _ | ⟨b, bs⟩⟩
        · cases values
        · have ha : k = a.value := by simpa [Value.toNode?] using values
          simp [Node.areWellFormed, ← ha, k, Node.isWellFormed, Node.isHead]
        · simp at values
  have h : (expand (eval 2) 0 {} t).Ends s (.ok (.call (.symbol "g") [⟨none, k⟩, .unnamed (.call (.symbol "h") [])]))
      ((s.logging (.unquoting (.symbol "f") [.head])).logging (.splicing (.symbol "xs") [.arg 0])) := rfl
  exact ⟨t, s, _, _, ht, hv, h, expand_wellFormed ht hv h⟩

end Quotation
