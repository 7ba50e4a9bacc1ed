import AppraisalReview.CaseReview
import AppraisalReview.Reordering

set_option autoImplicit false

/-!
# Sources in another order

Citations resolve, sources match and purposes are checked alike whatever the
order in which a registry lists its documents.
-/
namespace AppraisalReview
open Raising Reordering

variable {rt : Runtime}

def SourceDocument.supports (document : SourceDocument) (citation : SourceCitation) : Bool :=
  citation.cites document && !decide (document.pages.length < citation.page) &&
    match (document.pages[(citation.page - 1).toNat]?).bind fun page =>
      page.regions.find? fun region => region.id = citation.regionId with
    | some region => region.supports citation
    | none => false

theorem cites_documentId {citation : SourceCitation} {document : SourceDocument}
    (h : citation.cites document = true) : document.documentId = citation.documentId := by
  simp only [SourceCitation.cites, Bool.and_eq_true, decide_eq_true_eq] at h
  exact h.1.1

theorem resolvesIn_eq_any (citation : SourceCitation) {documents : List SourceDocument}
    (h : (documents.map SourceDocument.documentId).Nodup) :
    resolvesIn citation documents = documents.any fun document => document.supports citation := by
  induction documents with
  | nil => rfl
  | cons document rest ih =>
    obtain ⟨hnot, hrest⟩ := List.nodup_cons.mp h
    rw [resolvesIn, List.any_cons, ih hrest]
    cases hcites : citation.cites document with
    | false => simp [SourceDocument.supports, hcites]
    | true =>
      have hothers : (rest.any fun other => other.supports citation) = false := by
        rw [List.any_eq_false]
        intro other hother
        cases hother' : citation.cites other with
        | false => simp [SourceDocument.supports, hother']
        | true =>
          refine absurd ?_ hnot
          rw [cites_documentId hcites, ← cites_documentId hother']
          exact List.mem_map_of_mem hother
      rw [hothers, Bool.or_false]
      cases hregion : (document.pages[(citation.page - 1).toNat]?).bind fun page =>
          page.regions.find? fun region => region.id = citation.regionId
      all_goals
        by_cases hlong : document.pages.length < citation.page <;>
          simp only [SourceDocument.supports, hcites, hregion, hlong, Bool.not_true,
            Bool.false_eq_true, if_false, if_true, decide_true, decide_false, Bool.not_false,
            Bool.and_true, Bool.true_and, Bool.and_false, Bool.false_and]

section registry
variable {registry registry' : SourceRegistry}
  (hids : (registry.documents.map SourceDocument.documentId).Nodup)
  (hperm : registry.documents.Perm registry'.documents)
include hids hperm

theorem resolves_reordered : registry.resolves = registry'.resolves := by
  funext citation
  have hids' := (hperm.map SourceDocument.documentId).nodup_iff.mp hids
  rw [SourceRegistry.resolves, SourceRegistry.resolves, resolvesIn_eq_any citation hids,
    resolvesIn_eq_any citation hids']
  exact (SameElements.of_perm hperm).any _

theorem citationsValid_reordered : registry.citationsValid = registry'.citationsValid := by
  funext refs
  rw [SourceRegistry.citationsValid, SourceRegistry.citationsValid,
    resolves_reordered hids hperm]

theorem documentOf_reordered (id : String) :
    (registry.documents.find? fun document => document.documentId = id) =
      registry'.documents.find? fun document => document.documentId = id := by
  apply (SameElements.of_perm hperm).find?
  intro x hx y hy hxid hyid
  rw [decide_eq_true_eq] at hxid hyid
  exact List.inj_on_of_nodup_map hids hx hy (hxid.trans hyid.symm)

end registry

theorem registryValid_reordered {registry registry' : SourceRegistry}
    (hperm : registry.documents.Perm registry'.documents) : registry.valid = registry'.valid := by
  have hnil := (SameElements.of_perm hperm).eq_nil
  have hnodup := (hperm.map SourceDocument.documentId).nodup_iff
  simp only [SourceRegistry.valid, ne_eq, hnil, hnodup,
    (SameElements.of_perm hperm).all SourceDocument.valid]

def SourceDocument.Locatable (rt : Runtime) (document : SourceDocument) : Prop :=
  ∃ identity, documentIdentity rt document.uri = .ok identity

theorem sameIdentityAndContent_locatable {now document : SourceDocument} {b : Bool}
    (h : now.sameIdentityAndContent rt document = .ok b) : now.Locatable rt := by
  obtain ⟨own, hown, -⟩ := bind_ok.mp h
  exact ⟨own, hown⟩

theorem sameIdentityAndContent_documentId {now document : SourceDocument}
    (h : now.sameIdentityAndContent rt document = .ok true) :
    now.documentId = document.documentId := by
  obtain ⟨own, -, h⟩ := bind_ok.mp h
  obtain ⟨other, -, h⟩ := bind_ok.mp h
  have hboth := pure_ok.mp h
  simp only [SourceDocument.sameContent, Bool.and_eq_true, decide_eq_true_eq] at hboth
  exact hboth.2.1.1.1.1.1

/-- A comparison of the current sources that came to an end has located them all. -/
theorem sourcesMatch_locatable {reviewed current : SourceRegistry}
    (hreviewed : (reviewed.documents.map SourceDocument.documentId).Nodup)
    (hcurrent : (current.documents.map SourceDocument.documentId).Nodup)
    (hlength : current.documents.length = reviewed.documents.length) {b : Bool}
    (h : sourcesMatch rt reviewed current = .ok b) :
    ∀ now ∈ current.documents, now.Locatable rt := by
  rw [sourcesMatch, if_neg (not_not.mpr hlength)] at h
  cases b with
  | false =>
    obtain ⟨document, -, hnone⟩ := allM_false h
    exact fun now hnow => sameIdentityAndContent_locatable (anyM_false hnone now hnow)
  | true =>
    have hmatched : ∀ document ∈ reviewed.documents, ∃ now ∈ current.documents,
        now.sameIdentityAndContent rt document = .ok true :=
      fun document hin => anyM_true (allM_true.mp h document hin)
    -- as many distinct ids on both sides, so no current document is left over
    have hsubset : reviewed.documents.map SourceDocument.documentId ⊆
        current.documents.map SourceDocument.documentId := by
      intro id hid
      obtain ⟨document, hdocument, rfl⟩ := List.mem_map.mp hid
      obtain ⟨now, hnow, hsame⟩ := hmatched document hdocument
      exact List.mem_map.mpr ⟨now, hnow, sameIdentityAndContent_documentId hsame⟩
    have hperm := (hreviewed.subperm hsubset).perm_of_length_le (by simp [hlength])
    intro now hnow
    obtain ⟨document, hdocument, hid⟩ :=
      List.mem_map.mp (hperm.mem_iff.mpr (List.mem_map_of_mem hnow))
    obtain ⟨now', hnow', hsame⟩ := hmatched document hdocument
    have heq : now' = now := List.inj_on_of_nodup_map hcurrent hnow' hnow
      ((sameIdentityAndContent_documentId hsame).trans hid)
    exact heq ▸ sameIdentityAndContent_locatable hsame

theorem anyMatch_reordered {current current' : List SourceDocument} (hperm : current.Perm current')
    (hlocatable : ∀ now ∈ current, now.Locatable rt) (document : SourceDocument) :
    (current.anyM fun now => now.sameIdentityAndContent rt document) =
      current'.anyM fun now => now.sameIdentityAndContent rt document := by
  cases hother : documentIdentity rt document.uri with
  | ok other =>
    let q (now : SourceDocument) : Bool :=
      decide (documentIdentity rt now.uri = .ok other) && now.sameContent document
    have hq : ∀ now ∈ current, now.sameIdentityAndContent rt document = .ok (q now) := by
      intro now hnow
      obtain ⟨own, hown⟩ := hlocatable now hnow
      simp only [SourceDocument.sameIdentityAndContent, hown, hother, q, Except.ok.injEq]
      rfl
    rw [anyM_eq_any hq, anyM_eq_any fun now hnow => hq now (hperm.mem_iff.mpr hnow),
      (SameElements.of_perm hperm).any]
  | error e =>
    have hraise : ∀ now ∈ current, now.sameIdentityAndContent rt document = .error e := by
      intro now hnow
      obtain ⟨own, hown⟩ := hlocatable now hnow
      simp only [SourceDocument.sameIdentityAndContent, hown, hother]
      rfl
    cases current with
    | nil => rw [List.nil_perm.mp hperm]
    | cons first rest =>
      obtain ⟨first', rest', rfl⟩ := List.exists_cons_of_length_eq_add_one hperm.length_eq.symm
      rw [List.anyM_cons, List.anyM_cons, hraise first List.mem_cons_self,
        hraise first' (hperm.mem_iff.mpr List.mem_cons_self)]
      rfl

theorem sourcesMatch_reordered {reviewed current current' : SourceRegistry}
    (hreviewed : (reviewed.documents.map SourceDocument.documentId).Nodup)
    (hcurrent : (current.documents.map SourceDocument.documentId).Nodup)
    (hperm : current.documents.Perm current'.documents) {b : Bool}
    (h : sourcesMatch rt reviewed current = .ok b) : sourcesMatch rt reviewed current' = .ok b := by
  by_cases hlength : current.documents.length = reviewed.documents.length
  · have hlocatable := sourcesMatch_locatable hreviewed hcurrent hlength h
    rw [sourcesMatch, if_neg (by rw [← hperm.length_eq]; exact not_not.mpr hlength)]
    rw [sourcesMatch, if_neg (not_not.mpr hlength)] at h
    rw [← h]
    exact allM_congr fun document _ => (anyMatch_reordered hperm hlocatable document).symm
  · rw [sourcesMatch, if_pos hlength] at h
    rwa [sourcesMatch, if_pos (by rwa [← hperm.length_eq])]

/-- Two comparisons that both came to an end agree, also on reviewed sources in another order. -/
theorem sourcesMatch_agree {reviewed reviewed' current current' : SourceRegistry}
    (hreviewed : reviewed.documents.Perm reviewed'.documents)
    (hcurrent : current.documents.Perm current'.documents) {b b' : Bool}
    (h : sourcesMatch rt reviewed current = .ok b)
    (h' : sourcesMatch rt reviewed' current' = .ok b') : b = b' := by
  have himp : ∀ {reviewed reviewed' current current' : SourceRegistry},
      reviewed.documents.Perm reviewed'.documents → current.documents.Perm current'.documents →
      sourcesMatch rt reviewed current = .ok true →
      ∀ b', sourcesMatch rt reviewed' current' = .ok b' → b' = true := by
    intro reviewed reviewed' current current' hreviewed hcurrent h b' h'
    by_contra hfalse
    rw [Bool.not_eq_true] at hfalse
    subst hfalse
    by_cases hlength : current.documents.length = reviewed.documents.length
    · rw [sourcesMatch, if_neg (not_not.mpr hlength)] at h
      rw [sourcesMatch, ← hcurrent.length_eq, ← hreviewed.length_eq,
        if_neg (not_not.mpr hlength)] at h'
      obtain ⟨document, hdocument, hnone⟩ := allM_false h'
      obtain ⟨now, hnow, hsame⟩ :=
        anyM_true (allM_true.mp h document (hreviewed.mem_iff.mpr hdocument))
      have hother := anyM_false hnone now (hcurrent.mem_iff.mp hnow)
      rw [hsame] at hother
      cases hother
    · rw [sourcesMatch, if_pos hlength] at h
      cases h
  cases b with
  | true => exact (himp hreviewed hcurrent h b' h').symm
  | false =>
    cases b' with
    | false => rfl
    | true => exact himp hreviewed.symm hcurrent.symm h' false h

theorem documentIdentity_error {uri : String} {e : Escape}
    (h : documentIdentity rt uri = .error e) : e.isValueError = true := by
  rw [documentIdentity] at h
  split at h
  · cases h
    rfl
  · split at h
    · cases h
      rfl
    · simp only at h
      split_ifs at h <;> cases h <;> rfl

theorem sameIdentityAndContent_error {a b : SourceDocument} {e : Escape}
    (h : a.sameIdentityAndContent rt b = .error e) : e.isValueError = true := by
  rcases bind_error.mp h with hown | ⟨own, -, h⟩
  · exact documentIdentity_error hown
  · rcases bind_error.mp h with hother | ⟨other, -, h⟩
    · exact documentIdentity_error hother
    · cases h

theorem keepWhere_ok {α : Type} {condition : α → Except Escape Bool} {q : α → Bool} {l : List α}
    (h : ∀ x ∈ l, condition x = .ok (q x)) : keepWhere condition l = .ok (l.filter q) := by
  induction l with
  | nil => rfl
  | cons x rest ih =>
    rw [keepWhere, h x List.mem_cons_self, ih fun y hy => h y (List.mem_cons_of_mem _ hy)]
    cases hx : q x <;> simp [hx, bind, Except.bind, pure, Except.pure]

theorem keepWhere_raises {α : Type} {condition : α → Except Escape Bool} {l : List α}
    (h : ∃ x ∈ l, ∃ e, condition x = .error e) : ∃ e, keepWhere condition l = .error e := by
  induction l with
  | nil =>
    obtain ⟨x, hx, -⟩ := h
    exact absurd hx List.not_mem_nil
  | cons x rest ih =>
    rw [keepWhere]
    cases hx : condition x with
    | error e => exact ⟨e, rfl⟩
    | ok keep =>
      obtain ⟨y, hy, e, he⟩ := h
      rcases List.mem_cons.mp hy with rfl | hy
      · rw [hx] at he
        cases he
      · obtain ⟨e', he'⟩ := ih ⟨y, hy, e, he⟩
        exact ⟨e', by rw [he']; rfl⟩

theorem keepWhere_error {α : Type} {condition : α → Except Escape Bool} {l : List α} {e : Escape}
    (h : keepWhere condition l = .error e) : ∃ x ∈ l, condition x = .error e := by
  induction l with
  | nil => cases h
  | cons x rest ih =>
    rw [keepWhere] at h
    rcases bind_error.mp h with hx | ⟨keep, -, h⟩
    · exact ⟨x, List.mem_cons_self, hx⟩
    · rcases bind_error.mp h with hrest | ⟨kept, -, h⟩
      · obtain ⟨y, hy, he⟩ := ih hrest
        exact ⟨y, List.mem_cons_of_mem _ hy, he⟩
      · cases h

def onlyChoice : List SourceDocument → Except Escape SourceDocument
  | [choice] => .ok choice
  | _ => .error (.valueError "source_purpose: one current source per selected role required")

def choicesOf (rt : Runtime) (registry : SourceRegistry) (role : DocumentRole) :
    Option SourceDocument → Except Escape (List SourceDocument)
  | none => .ok (registry.documents.filter fun document => document.role = role)
  | some given => keepWhere (fun document => document.sameIdentityAndContent rt given)
      (registry.documents.filter fun document => document.role = role)

theorem selectSource_eq (registry : SourceRegistry) (role : DocumentRole)
    (supplied : Option SourceDocument) :
    selectSource rt registry role supplied = choicesOf rt registry role supplied >>= onlyChoice := by
  have hchoice : ∀ l : List SourceDocument, (match l with
      | [choice] => pure choice
      | _ => throw (Escape.valueError
          "source_purpose: one current source per selected role required")) = onlyChoice l := by
    intro l
    rcases l with _ | ⟨first, _ | ⟨second, rest⟩⟩ <;> rfl
  cases supplied with
  | none => exact hchoice _
  | some given => exact congrArg _ (funext hchoice)

/-- Two computations that give the same value, or both fail with a value error. -/
def SameOrRefused {α : Type} (x y : Except Escape α) : Prop :=
  (∃ a, x = .ok a ∧ y = .ok a) ∨
    ∃ e e', x = .error e ∧ y = .error e' ∧ e.isValueError = true ∧ e'.isValueError = true

theorem onlyChoice_reordered {l l' : List SourceDocument} (h : l.Perm l') :
    SameOrRefused (onlyChoice l) (onlyChoice l') := by
  rcases l with _ | ⟨first, _ | ⟨second, rest⟩⟩
  · rw [List.nil_perm.mp h]
    exact Or.inr ⟨_, _, rfl, rfl, rfl, rfl⟩
  · rw [← List.singleton_perm.mp h]
    exact Or.inl ⟨first, rfl, rfl⟩
  · rcases l' with _ | ⟨first', _ | ⟨second', rest'⟩⟩
    · exact absurd h.length_eq (by simp)
    · exact absurd h.length_eq (by simp)
    · exact Or.inr ⟨_, _, rfl, rfl, rfl, rfl⟩

/-- What is chosen from the documents of a role: the same one, or none in either order. -/
theorem selectSource_reordered (rt : Runtime) {registry registry' : SourceRegistry}
    (hperm : registry.documents.Perm registry'.documents) (role : DocumentRole)
    (supplied : Option SourceDocument) :
    SameOrRefused (selectSource rt registry role supplied)
      (selectSource rt registry' role supplied) := by
  have hrole := hperm.filter fun document => decide (document.role = role)
  rw [selectSource_eq, selectSource_eq]
  cases supplied with
  | none => exact onlyChoice_reordered hrole
  | some given =>
    rw [choicesOf, choicesOf]
    by_cases hraise : ∃ document ∈ registry.documents.filter (fun d => decide (d.role = role)),
        ∃ e, document.sameIdentityAndContent rt given = .error e
    · have hraise' : ∃ document ∈ registry'.documents.filter (fun d => decide (d.role = role)),
          ∃ e, document.sameIdentityAndContent rt given = .error e := by
        obtain ⟨document, hin, hex⟩ := hraise
        exact ⟨document, hrole.mem_iff.mp hin, hex⟩
      obtain ⟨e, he⟩ := keepWhere_raises hraise
      obtain ⟨e', he'⟩ := keepWhere_raises hraise'
      obtain ⟨_, -, hsource⟩ := keepWhere_error he
      obtain ⟨_, -, hsource'⟩ := keepWhere_error he'
      rw [he, he']
      exact Or.inr ⟨_, _, rfl, rfl, sameIdentityAndContent_error hsource,
        sameIdentityAndContent_error hsource'⟩
    · push Not at hraise
      let q (document : SourceDocument) : Bool :=
        (document.sameIdentityAndContent rt given).toOption.any id
      have hq : ∀ document ∈ registry.documents.filter (fun d => decide (d.role = role)),
          document.sameIdentityAndContent rt given = .ok (q document) := by
        intro document hin
        cases hsame : document.sameIdentityAndContent rt given with
        | error e => exact absurd hsame (hraise document hin e)
        | ok b => cases b <;> simp [q, hsame, Except.toOption]
      rw [keepWhere_ok hq, keepWhere_ok fun document hin => hq document (hrole.mem_iff.mpr hin)]
      exact onlyChoice_reordered (hrole.filter q)

/-- The same two documents are selected, or the selection is unusable in either order. -/
theorem selected_reordered (rt : Runtime) {registry registry' : SourceRegistry}
    (hperm : registry.documents.Perm registry'.documents) (forms criteria : Option SourceDocument) :
    (∃ chosen chosenCriteria,
      SourcePurposes.selected rt registry forms criteria = .ok ⟨registry, chosen, chosenCriteria⟩ ∧
      SourcePurposes.selected rt registry' forms criteria =
        .ok ⟨registry', chosen, chosenCriteria⟩) ∨
    ∃ e e', SourcePurposes.selected rt registry forms criteria = .error e ∧
      SourcePurposes.selected rt registry' forms criteria = .error e' ∧
      e.isValueError = true ∧ e'.isValueError = true := by
  unfold SourcePurposes.selected
  rcases selectSource_reordered rt hperm .forms forms with ⟨chosen, h, h'⟩ |
    ⟨e, e', h, h', hvalue⟩
  · rcases selectSource_reordered rt hperm .criteria criteria with ⟨other, ho, ho'⟩ |
      ⟨e, e', ho, ho', hvalue⟩
    · rw [h, h', ho, ho']
      exact Or.inl ⟨chosen, other, rfl, rfl⟩
    · rw [h, h', ho, ho']
      exact Or.inr ⟨e, e', rfl, rfl, hvalue⟩
  · rw [h, h']
    exact Or.inr ⟨e, e', rfl, rfl, hvalue⟩

end AppraisalReview
