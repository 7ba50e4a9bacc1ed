import AppraisalReview.Dict
import Mathlib.Data.Fintype.Card
import Mathlib.Data.List.Dedup
import Mathlib.Data.Set.Finite.Basic
import Mathlib.Logic.Relation
import Mathlib.Order.WellFounded

set_option autoImplicit false

/-!
# Evaluation along a topological order

A sorter either lists every node after its predecessors or reports a cycle.
Nodes evaluated in such an order, each from the values of its predecessors,
get values that do not depend on the order.
-/
namespace AppraisalReview.TopologicalSort
variable {ν : Type}

abbrev Graph (ν : Type) := List (ν × List ν)

def Edge (g : Graph ν) (a b : ν) : Prop := ∃ before, (b, before) ∈ g ∧ a ∈ before

def Cyclic (g : Graph ν) : Prop := ∃ n, Relation.TransGen (Edge g) n n

def nodes (g : Graph ν) : List ν := g.flatMap fun entry => entry.1 :: entry.2

def Ordered (g : Graph ν) : List ν → List ν → Prop
  | _, [] => True
  | done, n :: rest => n ∉ done ∧ (∀ a, Edge g a n → a ∈ done) ∧ Ordered g (n :: done) rest

structure Sorts (g : Graph ν) (order : List ν) : Prop where
  ordered : Ordered g [] order
  covers : ∀ n, n ∈ order ↔ n ∈ nodes g

/-- Any way of sorting: which of the possible orders comes out is not said. -/
structure Sorter (ν : Type) where
  order : Graph ν → Option (List ν)
  sorts : ∀ {g l}, order g = some l → Sorts g l
  cyclic : ∀ {g}, order g = none → Cyclic g

theorem edge_nodes {g : Graph ν} {a b : ν} (h : Edge g a b) : a ∈ nodes g ∧ b ∈ nodes g := by
  obtain ⟨before, hentry, ha⟩ := h
  exact ⟨List.mem_flatMap.mpr ⟨_, hentry, List.mem_cons_of_mem _ ha⟩,
    List.mem_flatMap.mpr ⟨_, hentry, List.mem_cons_self⟩⟩

theorem Ordered.nodup {g : Graph ν} {done order : List ν} (h : Ordered g done order) :
    order.Nodup ∧ ∀ n ∈ order, n ∉ done := by
  induction order generalizing done with
  | nil => exact ⟨List.nodup_nil, fun _ hn => absurd hn List.not_mem_nil⟩
  | cons first rest ih =>
    obtain ⟨hnew, -, hrest⟩ := h
    obtain ⟨hnodup, hfresh⟩ := ih hrest
    refine ⟨List.nodup_cons.mpr ⟨?_, hnodup⟩, ?_⟩
    · intro hin
      exact hfresh first hin List.mem_cons_self
    · intro n hn
      rcases List.mem_cons.mp hn with rfl | hn
      · exact hnew
      · exact fun hdone => hfresh n hn (List.mem_cons_of_mem _ hdone)

theorem ordered_nil {done order : List ν} (hnodup : order.Nodup) (hfresh : ∀ n ∈ order, n ∉ done) :
    Ordered ([] : Graph ν) done order := by
  induction order generalizing done with
  | nil => trivial
  | cons first rest ih =>
    obtain ⟨hnot, hrest⟩ := List.nodup_cons.mp hnodup
    refine ⟨hfresh first List.mem_cons_self, ?_, ih hrest ?_⟩
    · rintro a ⟨before, hentry, -⟩
      exact absurd hentry List.not_mem_nil
    · intro n hn hdone
      rcases List.mem_cons.mp hdone with rfl | hdone
      · exact hnot hn
      · exact hfresh n (List.mem_cons_of_mem _ hn) hdone

theorem Ordered.of_edges {g g' : Graph ν} (hedges : ∀ a b, Edge g' a b → Edge g a b)
    {done order : List ν} (h : Ordered g done order) : Ordered g' done order := by
  induction order generalizing done with
  | nil => trivial
  | cons first rest ih =>
    exact ⟨h.1, fun a ha => h.2.1 a (hedges a first ha), ih h.2.2⟩

theorem Cyclic.of_edges {g g' : Graph ν} (hedges : ∀ a b, Edge g a b → Edge g' a b)
    (h : Cyclic g) : Cyclic g' :=
  h.imp fun n hn => Relation.TransGen.mono hedges n n hn

section positions
variable [DecidableEq ν]

theorem Ordered.position_lt {g : Graph ν} {done order : List ν} (h : Ordered g done order)
    {a b : ν} (hb : b ∈ order) (hedge : Edge g a b) (ha : a ∉ done) :
    order.idxOf a < order.idxOf b := by
  induction order generalizing done with
  | nil => exact absurd hb List.not_mem_nil
  | cons first rest ih =>
    obtain ⟨-, hbefore, hrest⟩ := h
    have hne : first ≠ b := by
      rintro rfl
      exact ha (hbefore a hedge)
    rw [List.idxOf_cons_ne _ hne]
    by_cases hfirst : first = a
    · rw [hfirst, List.idxOf_cons_self]
      exact Nat.succ_pos _
    · rw [List.idxOf_cons_ne _ hfirst]
      have hin : b ∈ rest := (List.mem_cons.mp hb).resolve_left (Ne.symm hne)
      have hnew : a ∉ first :: done := by
        rintro hmem
        exact (List.mem_cons.mp hmem).elim (fun heq => hfirst heq.symm) ha
      exact Nat.succ_lt_succ (ih hrest hin hnew)

theorem Sorts.acyclic {g : Graph ν} {order : List ν} (h : Sorts g order) : ¬Cyclic g := by
  rintro ⟨n, hcycle⟩
  have hlift := hcycle.lift (fun m => order.idxOf m) fun a b hedge =>
    h.ordered.position_lt ((h.covers b).mpr (edge_nodes hedge).2) hedge List.not_mem_nil
  rw [Relation.transGen_eq_self] at hlift
  exact lt_irrefl _ hlift

theorem Sorter.none_of_edges (sorter sorter' : Sorter ν) {g g' : Graph ν}
    (hedges : ∀ a b, Edge g a b → Edge g' a b) (h : sorter.order g = none) :
    sorter'.order g' = none := by
  cases hl : sorter'.order g' with
  | none => rfl
  | some l => exact absurd ((sorter.cyclic h).of_edges hedges) (sorter'.sorts hl).acyclic

end positions

section settle
variable [DecidableEq ν] {V ω ε : Type}

def settle (step : (ν → Option V) → ν → Except ε (List ω × Option V)) :
    List ν → Dict ν V → Except ε (List ω × Dict ν V)
  | [], known => .ok ([], known)
  | n :: rest, known =>
    match step known.get? n with
    | .error e => .error e
    | .ok (out, value) =>
      match settle step rest (value.elim known (known.set n)) with
      | .error e => .error e
      | .ok (later, final) => .ok (out ++ later, final)

def Local (g : Graph ν) (step : (ν → Option V) → ν → Except ε (List ω × Option V)) : Prop :=
  ∀ env env' n, (∀ a, Edge g a n → env a = env' a) → step env n = step env' n

theorem extend_get? (known : Dict ν V) (n : ν) (value : Option V) (hnew : known.get? n = none)
    (m : ν) : (value.elim known (known.set n)).get? m = if m = n then value else known.get? m := by
  cases value with
  | none =>
    split_ifs with h
    · rw [h]
      exact hnew
    · rfl
  | some v => exact Dict.get?_set known n v m

/-- After a run every node carries the value its step computes from the final values. -/
theorem settle_settled {g : Graph ν}
    {step : (ν → Option V) → ν → Except ε (List ω × Option V)} (hlocal : Local g step)
    {done order : List ν} (hordered : Ordered g done order) {known : Dict ν V}
    (hknown : ∀ n, n ∉ done → known.get? n = none) {out : List ω} {final : Dict ν V}
    (hrun : settle step order known = .ok (out, final)) :
    (∀ n, n ∉ order → final.get? n = known.get? n) ∧
    (∀ n ∈ order, ∃ o, step final.get? n = .ok (o, final.get? n) ∧ ∀ x ∈ o, x ∈ out) ∧
    ∀ x ∈ out, ∃ n ∈ order, ∃ o, step final.get? n = .ok (o, final.get? n) ∧ x ∈ o := by
  induction order generalizing done known out with
  | nil =>
    cases hrun
    exact ⟨fun _ _ => rfl, fun n hn => absurd hn List.not_mem_nil,
      fun x hx => absurd hx List.not_mem_nil⟩
  | cons first rest ih =>
    have hnodup := hordered.nodup.1
    obtain ⟨hnew, hbefore, hrest⟩ := hordered
    rw [settle] at hrun
    split at hrun
    · cases hrun
    · rename_i o value hstep
      split at hrun
      · cases hrun
      · rename_i later final' hlater
        cases hrun
        have hextend := extend_get? known first value (hknown first hnew)
        have hunknown : ∀ n, n ∉ first :: done →
            (value.elim known (known.set first)).get? n = none := by
          intro n hn
          rw [hextend, if_neg (by rintro rfl; exact hn List.mem_cons_self)]
          exact hknown n fun h => hn (List.mem_cons_of_mem _ h)
        obtain ⟨hkeep, hvalues, horigin⟩ := ih hrest hunknown hlater
        have hfresh : first ∉ rest := (List.nodup_cons.mp hnodup).1
        have hfirst : final.get? first = value := by rw [hkeep first hfresh, hextend, if_pos rfl]
        have hsame : ∀ a, Edge g a first → known.get? a = final.get? a := by
          intro a ha
          have hdone := hbefore a ha
          have hrestnot : a ∉ rest := fun hin =>
            (Ordered.nodup hrest).2 a hin (List.mem_cons_of_mem _ hdone)
          rw [hkeep a hrestnot, hextend, if_neg (by rintro rfl; exact hnew hdone)]
        have hagain : step final.get? first = .ok (o, final.get? first) := by
          rw [← hlocal _ _ first hsame, hstep, hfirst]
        refine ⟨?_, ?_, ?_⟩
        · intro n hn
          rw [List.mem_cons, not_or] at hn
          rw [hkeep n hn.2, hextend, if_neg hn.1]
        · intro n hn
          rcases List.mem_cons.mp hn with rfl | hn
          · exact ⟨o, hagain, fun x hx => List.mem_append_left _ hx⟩
          · obtain ⟨o', ho', hin⟩ := hvalues n hn
            exact ⟨o', ho', fun x hx => List.mem_append_right _ (hin x hx)⟩
        · intro x hx
          rcases List.mem_append.mp hx with hx | hx
          · exact ⟨first, List.mem_cons_self, o, hagain, hx⟩
          · obtain ⟨n, hn, o', ho', hx⟩ := horigin x hx
            exact ⟨n, List.mem_cons_of_mem _ hn, o', ho', hx⟩

/-- Values that satisfy every step are found again, up to a relation, along
any order of any graph with the same edges. -/
theorem settle_transfer {g : Graph ν} {V' ω' ε' : Type} (related : Option V → Option V' → Prop)
    (env : ν → Option V) (step : (ν → Option V') → ν → Except ε' (List ω' × Option V'))
    {done order : List ν} (hordered : Ordered g done order)
    (hstep : ∀ n ∈ order, ∀ env', (∀ a, Edge g a n → related (env a) (env' a)) →
      ∃ o v, step env' n = .ok (o, v) ∧ related (env n) v)
    {known : Dict ν V'} (hknown : ∀ n, n ∉ done → known.get? n = none)
    (hdone : ∀ n ∈ done, related (env n) (known.get? n)) :
    ∃ out final, settle step order known = .ok (out, final) ∧
      ∀ n, n ∈ done ∨ n ∈ order → related (env n) (final.get? n) := by
  induction order generalizing done known with
  | nil => exact ⟨[], known, rfl, fun n hn => hdone n (hn.resolve_right List.not_mem_nil)⟩
  | cons first rest ih =>
    obtain ⟨hnew, hbefore, hrest⟩ := hordered
    obtain ⟨o, value, hrun, hvalue⟩ := hstep first List.mem_cons_self known.get? fun a ha =>
      hdone a (hbefore a ha)
    have hextend := extend_get? known first value (hknown first hnew)
    have hknown' : ∀ n, n ∉ first :: done →
        (value.elim known (known.set first)).get? n = none := by
      intro n hn
      rw [hextend, if_neg (by rintro rfl; exact hn List.mem_cons_self)]
      exact hknown n fun h => hn (List.mem_cons_of_mem _ h)
    have hdone' : ∀ n ∈ first :: done,
        related (env n) ((value.elim known (known.set first)).get? n) := by
      intro n hn
      rw [hextend]
      split_ifs with heq
      · rw [heq]
        exact hvalue
      · exact hdone n ((List.mem_cons.mp hn).resolve_left heq)
    obtain ⟨later, final, hlater, hfinal⟩ :=
      ih hrest (fun n hn => hstep n (List.mem_cons_of_mem _ hn)) hknown' hdone'
    refine ⟨o ++ later, final, by rw [settle, hrun]; simp only [hlater], ?_⟩
    intro n hn
    apply hfinal
    rcases hn with hn | hn
    · exact Or.inl (List.mem_cons_of_mem _ hn)
    · rcases List.mem_cons.mp hn with rfl | hn
      · exact Or.inl List.mem_cons_self
      · exact Or.inr hn

end settle

section kahn
variable [DecidableEq ν]

def predecessors (g : Graph ν) (n : ν) : List ν :=
  g.flatMap fun entry => if entry.1 = n then entry.2 else []

theorem mem_predecessors (g : Graph ν) (a n : ν) : a ∈ predecessors g n ↔ Edge g a n := by
  simp only [predecessors, List.mem_flatMap, Edge, Prod.exists]
  constructor
  · rintro ⟨m, before, hentry, ha⟩
    split_ifs at ha with h
    · subst h
      exact ⟨before, hentry, ha⟩
    · exact absurd ha List.not_mem_nil
  · rintro ⟨before, hentry, ha⟩
    exact ⟨n, before, hentry, by simpa using ha⟩

/-- Take the first node whose predecessors are all done, again and again. -/
def takeReady (g : Graph ν) : ℕ → List ν → List ν → Option (List ν)
  | _, _, [] => some []
  | 0, _, _ => none
  | fuel + 1, done, remaining =>
    match remaining.find? fun n => (predecessors g n).all (· ∈ done) with
    | none => none
    | some n => (takeReady g fuel (n :: done) (remaining.erase n)).map (n :: ·)

theorem takeReady_sorts {g : Graph ν} {fuel : ℕ} {done remaining l : List ν}
    (hnodup : remaining.Nodup) (hfresh : ∀ n ∈ remaining, n ∉ done)
    (h : takeReady g fuel done remaining = some l) :
    Ordered g done l ∧ ∀ n, n ∈ l ↔ n ∈ remaining := by
  induction fuel generalizing done remaining l with
  | zero =>
    cases remaining with
    | nil => cases h; exact ⟨trivial, fun _ => Iff.rfl⟩
    | cons _ _ => cases h
  | succ fuel ih =>
    cases hr : remaining with
    | nil => subst hr; cases h; exact ⟨trivial, fun _ => Iff.rfl⟩
    | cons first rest =>
      rw [← hr]
      rw [hr, takeReady, ← hr] at h
      · split at h
        · cases h
        · rename_i n hfind
          obtain ⟨tail, htail, rfl⟩ := Option.map_eq_some_iff.mp h
          have hn : n ∈ remaining := List.mem_of_find?_eq_some hfind
          have hready := List.find?_some hfind
          have hfresh' : ∀ m ∈ remaining.erase n, m ∉ n :: done := by
            intro m hm hin
            rcases List.mem_cons.mp hin with rfl | hin
            · exact (hnodup.not_mem_erase) hm
            · exact hfresh m (List.mem_of_mem_erase hm) hin
          obtain ⟨hordered, hmem⟩ := ih (hnodup.erase n) hfresh' htail
          refine ⟨⟨hfresh n hn, ?_, hordered⟩, ?_⟩
          · intro a ha
            rw [← mem_predecessors] at ha
            simpa using List.all_eq_true.mp hready a ha
          · intro m
            rw [List.mem_cons, hmem, hnodup.mem_erase_iff]
            by_cases hm : m = n
            · simp [hm, hn]
            · simp [hm]
      · exact List.cons_ne_nil _ _

omit [DecidableEq ν] in
theorem cyclic_of_waiting {g : Graph ν} (waiting : List ν) (hne : waiting ≠ [])
    (hwait : ∀ n ∈ waiting, ∃ a ∈ waiting, Edge g a n) : Cyclic g := by
  by_contra hacyclic
  let before : {n // n ∈ waiting} → {n // n ∈ waiting} → Prop := fun a b =>
    Relation.TransGen (Edge g) a.1 b.1
  have htrans : IsTrans _ before := ⟨fun a b c hab hbc => Relation.TransGen.trans hab hbc⟩
  have hirrefl : Std.Irrefl before := ⟨fun a ha => hacyclic ⟨a.1, ha⟩⟩
  have hfinite : Finite {n // n ∈ waiting} := List.finite_toSet waiting |>.to_subtype
  have hwf : WellFounded before := Finite.wellFounded_of_trans_of_irrefl before
  obtain ⟨first, rest, rfl⟩ := List.exists_cons_of_ne_nil hne
  obtain ⟨least, -, hleast⟩ := hwf.has_min Set.univ ⟨⟨first, List.mem_cons_self⟩, trivial⟩
  obtain ⟨a, ha, hedge⟩ := hwait least.1 least.2
  exact hleast ⟨a, ha⟩ trivial (Relation.TransGen.single hedge)

theorem takeReady_cyclic {g : Graph ν} {fuel : ℕ} {done remaining : List ν}
    (hclosed : ∀ n ∈ remaining, ∀ a, Edge g a n → a ∈ done ∨ a ∈ remaining)
    (hfuel : remaining.length ≤ fuel) (h : takeReady g fuel done remaining = none) : Cyclic g := by
  induction fuel generalizing done remaining with
  | zero =>
    cases remaining with
    | nil => cases h
    | cons _ _ => exact absurd hfuel (by simp)
  | succ fuel ih =>
    cases hr : remaining with
    | nil => subst hr; cases h
    | cons first rest =>
      rw [hr, takeReady, ← hr] at h
      · split at h
        · rename_i hnone
          apply cyclic_of_waiting remaining (by rw [hr]; exact List.cons_ne_nil _ _)
          intro n hn
          have hstuck := List.find?_eq_none.mp hnone n hn
          rw [Bool.not_eq_true, List.all_eq_false] at hstuck
          obtain ⟨a, ha, hnot⟩ := hstuck
          rw [mem_predecessors] at ha
          have hout : a ∉ done := by simpa using hnot
          exact ⟨a, (hclosed n hn a ha).resolve_left hout, ha⟩
        · rename_i n hfind
          have hn : n ∈ remaining := List.mem_of_find?_eq_some hfind
          apply ih _ _ (Option.map_eq_none_iff.mp h)
          · intro m hm a ha
            rcases hclosed m (List.mem_of_mem_erase hm) a ha with hin | hin
            · exact Or.inl (List.mem_cons_of_mem _ hin)
            · by_cases heq : a = n
              · exact Or.inl (heq ▸ List.mem_cons_self)
              · exact Or.inr ((List.mem_erase_of_ne heq).mpr hin)
          · rw [List.length_erase_of_mem hn]
            omega
      · exact List.cons_ne_nil _ _

def Sorter.kahn : Sorter ν where
  order g := takeReady g (nodes g).dedup.length [] (nodes g).dedup
  sorts h := by
    obtain ⟨hordered, hmem⟩ := takeReady_sorts (List.nodup_dedup _)
      (fun _ _ => List.not_mem_nil) h
    exact ⟨hordered, fun n => by rw [hmem, List.mem_dedup]⟩
  cyclic h := by
    apply takeReady_cyclic _ le_rfl h
    intro n _ a ha
    exact Or.inr (List.mem_dedup.mpr (edge_nodes ha).1)

end kahn
end AppraisalReview.TopologicalSort
