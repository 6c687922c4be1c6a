import Quotation.Eval.Evaluator
import Quotation.Proofs.Template.Hole
import Quotation.Proofs.Template.Place
/-!
# Where expansion fails

A failure of an expansion is that of one visit. `Blamed` lists how a visit can fail:
which place the path of the error leads to, what the source there gave, and that the
failure of a source is only the reason of the marker's own. All that is left of the
place has been expanded by then (`expand_error_blamed`).
-/

namespace Quotation

section
variable (ev : Evaluator) (env : FrameId) (options : ExpandOptions)

/-- The visit of a template fails, and how. -/
inductive Blamed (t : Template) : Visit → State → Error → State → Prop
  | recursionLimit {path u s} : t.Leads path (.template u) → options.maxDepth < path.length →
      Blamed t (.enter path path.length) s (.atPath .recursionLimit path) s
  | unquote {path source atHead v s s'} : t.Leads path (.template (.single source)) →
      (ev source env).Ends (s.logging (.unquoting source path)) (.ok v) s' → v.toNode? = none →
      Blamed t (.unquote path source atHead) s (.atPath (.unquote (.value v.type)) path) s'
  | unquoteFailed {path source atHead e s s'} : t.Leads path (.template (.single source)) →
      (ev source env).Ends (s.logging (.unquoting source path)) (.error e) s' →
      Blamed t (.unquote path source atHead) s (.causedBy (.unquote .failed) path e) s'
  | splice {path source v s s'} : t.Leads path (.splice source) →
      (ev source env).Ends (s.logging (.splicing source path)) (.ok v) s' → (∀ entries, v ≠ .list entries) →
      Blamed t (.splice path source) s (.atPath (.splice (.value v.type)) path) s'
  | spliceEntry {path source entries j v s s'} : t.Leads path (.splice source) →
      (ev source env).Ends (s.logging (.splicing source path)) (.ok (.list entries)) s' →
      Value.FirstUnliftable entries j v →
      Blamed t (.splice path source) s (.atPath (.splice (.value v.type)) (path ++ [.arg j])) s'
  | spliceFailed {path source e s s'} : t.Leads path (.splice source) →
      (ev source env).Ends (s.logging (.splicing source path)) (.error e) s' →
      Blamed t (.splice path source) s (.causedBy (.splice .failed) path e) s'
  | name {path i u source value v what s s'} : t.Leads path (.template u) → u.parts[i]? = some (.define source value) →
      (ev source env).Ends s (.ok v) s' → Expand.nameOf v = .error what →
      Blamed t (.name (path ++ [.name i]) source) s (.atPath (.definitionName what) (path ++ [.name i])) s'
  | nameFailed {path i u source value e s s'} : t.Leads path (.template u) →
      u.parts[i]? = some (.define source value) → (ev source env).Ends s (.error e) s' →
      Blamed t (.name (path ++ [.name i]) source) s (.causedBy (.definitionName .failed) (path ++ [.name i]) e) s'
  | head {path source v n s s'} : t.HeadAt path →
      (ev source env).Ends (s.logging (.unquoting source path)) (.ok v) s' → v.toNode? = some n → n.isHead = false →
      Blamed t (.unquote path source true) s (.atPath (.invalidHead n.kind) path) s'
  | listHead {path s} : t.HeadAt path → Blamed t (.listHead path) s (.atPath (.invalidHead .pairlist) path) s

/-- What stands at a place expands. -/
def Place.Expands (path : Path) (s s' : State) : Place → Prop
  | template t => ∃ n, (Expand.node ev env options path path.length t).Ends s (.ok n) s'
  | splice source => ∃ args, (Expand.splice ev env options source path).Ends s (.ok args) s'
  | name source => ∃ label, (Expand.definitionName ev env source path).Ends s (.ok label) s'

end

variable {ev : Evaluator} {env : FrameId} {options : ExpandOptions} {t : Template} {s s' : State} {e : Error}

open Run

theorem blamed_of_unquote {path : Path} {source : Node} {atHead : Bool}
    (ht : t.Leads path (.template (.single source))) (hhead : atHead = true → t.HeadAt path)
    (h : ((Visit.unquote path source atHead).run ev env options).Ends s (.error e) s') :
    Blamed ev env options t (.unquote path source atHead) s e s' := by
  -- Either the marker gave a node that is no head, or it gave none.
  rcases ends_bind_error.1 h with ⟨n, u, hn, hcheck⟩ | hn
  · obtain ⟨v, hv, hvn⟩ := Expand.ends_unquote_ok.1 hn
    cases atHead with
    | false =>
      cases (ends_pure.1 hcheck).1
    | true =>
      obtain ⟨hbad, rfl⟩ := ends_ofExcept.1 hcheck
      cases hh : n.isHead with
      | true => simp [Node.requireHead, hh] at hbad
      | false =>
        simp only [Node.requireHead, hh] at hbad
        cases hbad
        exact .head (hhead rfl) hv hvn hh
  · rcases Expand.ends_unquote.1 hn with ⟨v, hv, hbad⟩ | ⟨e', he, hbad⟩
    · cases hvn : v.toNode? with
      | some n => simp [hvn] at hbad
      | none =>
        simp only [hvn] at hbad
        cases hbad
        exact .unquote ht hv hvn
    · cases hbad
      exact .unquoteFailed ht he

theorem blamed_of_splice {path : Path} {source : Node} (ht : t.Leads path (.splice source))
    (h : ((Visit.splice path source).run ev env options).Ends s (.error e) s') :
    Blamed ev env options t (.splice path source) s e s' := by
  rcases ends_bind_error.1 h with ⟨_, _, _, hend⟩ | hs
  · cases (ends_pure.1 hend).1
  · rcases Expand.ends_splice.1 hs with ⟨v, u, hv, hargs⟩ | ⟨e', he, hbad⟩
    · obtain ⟨rfl, ⟨_, hok, _⟩ | ⟨entries, k, w, rfl, hw, hbad⟩ | ⟨hlist, hbad⟩⟩ := Expand.ends_splicedArgs hargs
      · cases hok
      · cases hbad
        exact .spliceEntry ht hv hw
      · cases hbad
        exact .splice ht hv hlist
    · cases hbad
      exact .spliceFailed ht he

theorem blamed_of_name {path : Path} {source : Node} (ht : t.Leads path (.name source))
    (h : ((Visit.name path source).run ev env options).Ends s (.error e) s') :
    Blamed ev env options t (.name path source) s e s' := by
  obtain ⟨q, i, u, value, rfl, hq, hi⟩ := ht.of_name
  rcases ends_bind_error.1 h with ⟨_, _, _, hend⟩ | hn
  · cases (ends_pure.1 hend).1
  · rcases Expand.ends_definitionName.1 hn with ⟨v, hv, hbad⟩ | ⟨e', he, hbad⟩
    · cases hname : Expand.nameOf v with
      | ok label =>
        rw [hname] at hbad
        cases hbad
      | error what =>
        rw [hname] at hbad
        cases hbad
        exact .name hq hi hv hname
    · cases hbad
      exact .nameFailed hq hi he

theorem blamed_of_enter {path : Path} {u : Template} (ht : t.Leads path (.template u))
    (h : ((Visit.enter path path.length).run ev env options).Ends s (.error e) s') :
    Blamed ev env options t (.enter path path.length) s e s' := by
  simp only [Visit.run, Expand.checkDepth] at h
  split at h
  · obtain ⟨herr, rfl⟩ := ends_failAt.1 h
    cases herr
    exact .recursionLimit ht (by assumption)
  · cases (ends_pure.1 h).1

/-- A visit of a place fails in one of these ways. -/
theorem blamed_of_ends {v : Visit} (hv : v.Fits t 0 false v.path) (h : (v.run ev env options).Ends s (.error e) s') :
    Blamed ev env options t v s e s' := by
  cases v with
  | enter path depth =>
    obtain ⟨⟨u, hu⟩, hdepth⟩ := hv
    rw [Nat.zero_add] at hdepth
    change depth = path.length at hdepth
    subst hdepth
    exact blamed_of_enter hu h
  | unquote path source atHead =>
    refine blamed_of_unquote hv.1 (fun ha => ?_) h
    rcases hv.2 ha with ⟨_, hfalse⟩ | hhead
    · cases hfalse
    · exact hhead
  | splice path source => exact blamed_of_splice hv h
  | name path source => exact blamed_of_name hv h
  | listHead path =>
    obtain ⟨herr, rfl⟩ := ends_failAt.1 h
    cases herr
    rcases hv with ⟨_, hfalse, _⟩ | hhead
    · cases hfalse
    · exact .listHead hhead

/-- The visits of a place have succeeded only if what stands there expands. -/
theorem expands_of_runAll {place : Place} {path : Path} {atHead : Bool}
    (h : (Visit.runAll ev env options (place.visits path path.length atHead)).Ends s (.ok ()) s') :
    place.Expands ev env options path s s' := by
  cases place with
  | template u =>
    unfold Place.visits at h
    rw [← node_eq_runAll] at h
    obtain ⟨n, w, hn, hcheck⟩ := ends_bind_ok.1 h
    have hw : s' = w := by
      split at hcheck
      · exact (ends_ofExcept.1 hcheck).2
      · exact (ends_pure.1 hcheck).2
    exact ⟨n, hw ▸ hn⟩
  | splice source =>
    obtain ⟨_, w, hs, hend⟩ := ends_bind_ok.1 h
    obtain ⟨args, x, hargs, hrest⟩ := ends_bind_ok.1 hs
    rw [(ends_pure.1 hend).2, (ends_pure.1 hrest).2]
    exact ⟨args, hargs⟩
  | name source =>
    obtain ⟨_, w, hs, hend⟩ := ends_bind_ok.1 h
    obtain ⟨label, x, hlabel, hrest⟩ := ends_bind_ok.1 hs
    rw [(ends_pure.1 hend).2, (ends_pure.1 hrest).2]
    exact ⟨label, hlabel⟩

/-- Visits among others that have succeeded have succeeded from where those before them ended. -/
theorem runAll_infix {vs ws : List Visit} (hi : vs <:+: ws)
    (h : (Visit.runAll ev env options ws).Ends s (.ok ()) s') :
    ∃ pre s₁ s₂, pre <+: ws ∧ (Visit.runAll ev env options pre).Ends s (.ok ()) s₁ ∧
      (Visit.runAll ev env options vs).Ends s₁ (.ok ()) s₂ := by
  obtain ⟨pre, post, rfl⟩ := hi
  rw [List.append_assoc, Visit.runAll_append, Visit.runAll_append] at h
  obtain ⟨_, s₁, hpre, hrest⟩ := ends_bind_ok.1 h
  obtain ⟨_, s₂, hvs, _⟩ := ends_bind_ok.1 hrest
  exact ⟨pre, s₁, s₂, ⟨vs ++ post, by simp⟩, hpre, hvs⟩

/-- Where the expansion of a template fails, one visit is to blame. The visits before it have
succeeded, among them all that there is to do at the places left of it. -/
theorem expand_error_blamed (h : (expand ev env options t).Ends s (.error e) s') :
    ∃ before v after u, t.visits [] 0 false = before ++ v :: after ∧
      (Visit.runAll ev env options before).Ends s (.ok ()) u ∧ Blamed ev env options t v u e s' ∧
      ∀ q place, t.Leads q place → q.LeftOf v.path → ∃ pre s₁ s₂, pre <+: before ∧
        (Visit.runAll ev env options pre).Ends s (.ok ()) s₁ ∧ place.Expands ev env options q s₁ s₂ := by
  have hrun : (Visit.runAll ev env options (t.visits [] 0 false)).Ends s (.error e) s' := by
    rw [← expand_eq_runAll]
    exact ends_bind_error.2 (.inr h)
  obtain ⟨before, v, after, u, ht, hbefore, hv⟩ := runAll_error hrun
  obtain ⟨p, hp, hfits⟩ := Template.fits_of_mem_visits [] 0 false t v (by simp [ht])
  rw [List.nil_append] at hp
  refine ⟨before, v, after, u, ht, hbefore, blamed_of_ends (hp ▸ hfits) hv, fun q place hq hleft => ?_⟩
  obtain ⟨atHead, hi⟩ := visits_infix_before ht hq hleft
  obtain ⟨pre, s₁, s₂, hpre, hs₁, hs₂⟩ := runAll_infix hi hbefore
  exact ⟨pre, s₁, s₂, hpre, hs₁, expands_of_runAll hs₂⟩

/-- In `f(1, g(!!!xs))` the list `xs` is spliced, whose second entry is a list. -/
theorem expand_error_blamed_entry : ∃ t s s',
    (expand (eval 2) 0 {} t).Ends s (.error (.atPath (.splice (.value .list)) [.arg 1, .arg 0, .arg 1])) s' ∧
      ∃ v u, Blamed (eval 2) 0 {} t v u (.atPath (.splice (.value .list)) [.arg 1, .arg 0, .arg 1]) s' := by
  let inner : Template := .call (.node (.symbol "g")) [.splice (.symbol "xs")]
  let t : Template := .call (.node (.symbol "f")) [.unnamed (.node (.const (.number (.int 1)))), .unnamed inner]
  let s := State.ofBindings [("xs", .value (.list [⟨none, .ofInt 1⟩, ⟨none, .list []⟩]))]
  let s' := s.logging (.splicing (.symbol "xs") [.arg 1, .arg 0])
  have h : (expand (eval 2) 0 {} t).Ends s
      (.error (.atPath (.splice (.value .list)) [.arg 1, .arg 0, .arg 1])) s' := rfl
  obtain ⟨_, v, _, u, _, _, hv, _⟩ := expand_error_blamed h
  exact ⟨t, s, s', h, v, u, hv⟩

end Quotation
