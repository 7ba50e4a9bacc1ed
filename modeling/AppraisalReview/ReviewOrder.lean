import AppraisalReview.CheckOrder
import AppraisalReview.ReviewPhases
import AppraisalReview.SourceOrder

set_option autoImplicit false

/-!
# A review in another order

Listing the material of a case in another order changes neither the status of
its review nor what the review requires, verifies and misses.
-/
namespace AppraisalReview
open TopologicalSort Raising Reordering

/-- The same case, listed in another order; nobody claims results. -/
structure Reordered (input input' : ReviewInput) : Prop where
  identity : input.policy.identity = input'.policy.identity
  reviewed : input.policy.registry.documents.Perm input'.policy.registry.documents
  contexts : input.policy.inventory.contexts.Perm input'.policy.inventory.contexts
  slots : input.policy.inventory.slots.Perm input'.policy.inventory.slots
  checks : (input.policy.inventory.checks.map ArithmeticCheck.content).Perm
    (input'.policy.inventory.checks.map ArithmeticCheck.content)
  emptyColumns : input.policy.inventory.emptyColumns = input'.policy.inventory.emptyColumns
  inspectedPages : input.policy.inventory.inspectedPages = input'.policy.inventory.inspectedPages
  inspectedTables : input.policy.inventory.inspectedTables = input'.policy.inventory.inspectedTables
  unresolved : input.policy.inventory.unresolved = input'.policy.inventory.unresolved
  unsupported : input.policy.inventory.unsupported = input'.policy.inventory.unsupported
  ruleSets : input.policy.ruleSets.Perm input'.policy.ruleSets
  factsIdentity : input.facts.identity = input'.facts.identity
  pairs : input.facts.pairs.Perm input'.facts.pairs
  observed : input.facts.observed.Perm input'.facts.observed
  factsUnresolved : input.facts.unresolved = input'.facts.unresolved
  registry : input.registry.documents.Perm input'.registry.documents
  forms : input.forms = input'.forms
  criteria : input.criteria = input'.criteria
  unclaimed : input.claimed = none
  unclaimed' : input'.claimed = none

/-- Two results with the same status, and the same ids required, verified and missing. -/
structure SameOutcome (r r' : CaseReviewResult) : Prop where
  status : r.status = r'.status
  required : SameElements r.coverage.required r'.coverage.required
  verified : SameElements r.coverage.verified r'.coverage.verified
  missing : SameElements r.coverage.missing r'.coverage.missing

variable {rt : Runtime} {ctx : DecimalContext} {reviewer : CaseReviewer}
  {sorter sorter' : Sorter String} {input input' : ReviewInput}

theorem mem_verifiedIds {findings : List ReviewFinding} {id : String} :
    id ∈ verifiedIds findings ↔ (id, EvaluationStatus.verified) ∈ findings.map ReviewFinding.mark := by
  simp only [verifiedIds, List.mem_map, List.mem_filter, decide_eq_true_eq, ReviewFinding.mark,
    Prod.mk.injEq]
  exact exists_congr fun f => by tauto

theorem mem_blockedIds {findings : List ReviewFinding} {id : String} :
    id ∈ blockedIds findings ↔
      ∃ status, status ≠ .verified ∧ (id, status) ∈ findings.map ReviewFinding.mark := by
  simp only [blockedIds, List.mem_map, List.mem_filter, decide_eq_true_eq, ReviewFinding.mark,
    Prod.mk.injEq]
  constructor
  · rintro ⟨f, ⟨hf, hstatus⟩, rfl⟩
    exact ⟨f.status, hstatus, f, hf, rfl, rfl⟩
  · rintro ⟨status, hstatus, f, hf, rfl, rfl⟩
    exact ⟨f, ⟨hf, hstatus⟩, rfl⟩

section finish
variable {findings findings' : List ReviewFinding}
  (h : SameElements (findings.map ReviewFinding.mark) (findings'.map ReviewFinding.mark))
include h

theorem verifiedIds_same : SameElements (verifiedIds findings) (verifiedIds findings') := by
  intro id
  rw [mem_verifiedIds, mem_verifiedIds, h]

theorem blockedIds_same : SameElements (blockedIds findings) (blockedIds findings') := by
  intro id
  rw [mem_blockedIds, mem_blockedIds]
  exact exists_congr fun status => and_congr_right' (h _)

theorem finish_same {policy policy' : ReviewPolicy} {slots slots' : List ReviewSlot}
    {origins origins' required required' : List String}
    {comparisons comparisons' : List FactorReviewResult} (hrequired : SameElements required required') :
    SameOutcome (finish policy slots origins required comparisons findings)
      (finish policy' slots' origins' required' comparisons' findings') := by
  have hverified := verifiedIds_same h
  have hblocked := blockedIds_same h
  have hcovered : SameElements
      ((verifiedIds findings).filter (· ∉ blockedIds findings))
      ((verifiedIds findings').filter (· ∉ blockedIds findings')) := by
    intro id
    simp only [List.mem_filter, decide_eq_true_eq, hverified id, hblocked id]
  have hfailed : (findings.any fun finding => decide (finding.status = .failed)) =
      findings'.any fun finding => decide (finding.status = .failed) := by
    have hany := h.any fun mark => decide (mark.2 = .failed)
    rwa [List.any_map, List.any_map] at hany
  have hcomplete : (required.all fun id => decide (id ∈ verifiedIds findings)) =
      required'.all fun id => decide (id ∈ verifiedIds findings') := by
    rw [hrequired.all]
    congr 1
    funext id
    exact decide_eq_decide.mpr (hverified id)
  refine ⟨?_, hrequired, ?_, ?_⟩
  · simp only [finish, reviewStatus, hfailed, hcomplete, ne_eq, hblocked.eq_nil]
  · intro id
    simp only [finish, mem_sortedSet]
    exact hcovered id
  · intro id
    simp only [finish, mem_sortedSet, List.mem_filter, hrequired id, decide_eq_true_eq,
      hverified id, hblocked id]

theorem trustBroken_same : trustBroken findings = trustBroken findings' := by
  have hany := h.any fun mark =>
    (decide (mark.1 = "sources") || decide (mark.1 = "trust")) && decide (mark.2 ≠ .verified)
  rwa [List.any_map, List.any_map] at hany

end finish

theorem checkValid_content {check check' : ArithmeticCheck} (h : check.content = check'.content) :
    check.valid ctx = check'.valid ctx := by
  have hkind : check.kind = check'.kind := congrArg CheckContent.kind h
  have htarget : check.target = check'.target := congrArg CheckContent.target h
  have hquantum : check.quantum = check'.quantum := congrArg CheckContent.quantum h
  have htolerance : check.tolerance = check'.tolerance := congrArg CheckContent.tolerance h
  have hevidence : check.evidence = check'.evidence := congrArg CheckContent.evidence h
  have hperm := ArithmeticCheck.content_inputs h
  simp only [ArithmeticCheck.valid, hkind, htarget, hquantum, htolerance, hevidence, ne_eq,
    (SameElements.of_perm hperm).eq_nil, hperm.mem_iff, hperm.length_eq]

theorem checks_all {checks checks' : List ArithmeticCheck}
    (h : (checks.map ArithmeticCheck.content).Perm (checks'.map ArithmeticCheck.content))
    {p : ArithmeticCheck → Bool} (hp : ∀ c c', c.content = c'.content → p c = p c') :
    checks.all p = checks'.all p := by
  rw [Bool.eq_iff_iff, List.all_eq_true, List.all_eq_true]
  constructor
  · intro hall check' hcheck'
    obtain ⟨check, hcheck, heq⟩ := List.mem_map.mp (h.mem_iff.mpr (List.mem_map_of_mem hcheck'))
    rw [← hp check check' heq]
    exact hall check hcheck
  · intro hall check hcheck
    obtain ⟨check', hcheck', heq⟩ := List.mem_map.mp (h.mem_iff.mp (List.mem_map_of_mem hcheck))
    rw [← hp check' check heq]
    exact hall check' hcheck'

namespace Reordered

theorem symm (h : Reordered input input') : Reordered input' input where
  identity := h.identity.symm
  reviewed := h.reviewed.symm
  contexts := h.contexts.symm
  slots := h.slots.symm
  checks := h.checks.symm
  emptyColumns := h.emptyColumns.symm
  inspectedPages := h.inspectedPages.symm
  inspectedTables := h.inspectedTables.symm
  unresolved := h.unresolved.symm
  unsupported := h.unsupported.symm
  ruleSets := h.ruleSets.symm
  factsIdentity := h.factsIdentity.symm
  pairs := h.pairs.symm
  observed := h.observed.symm
  factsUnresolved := h.factsUnresolved.symm
  registry := h.registry.symm
  forms := h.forms.symm
  criteria := h.criteria.symm
  unclaimed := h.unclaimed'
  unclaimed' := h.unclaimed

variable (h : Reordered input input')
include h

theorem valid (rt : Runtime) (ctx : DecimalContext) :
    (input.policy.valid rt ctx && input.facts.valid && input.registry.valid) =
    (input'.policy.valid rt ctx && input'.facts.valid && input'.registry.valid) := by
  have hinventory : input.policy.inventory.valid ctx = input'.policy.inventory.valid ctx := by
    simp only [ReviewInventory.valid, ne_eq, (SameElements.of_perm h.contexts).eq_nil,
      (SameElements.of_perm h.slots).eq_nil, (SameElements.of_perm h.contexts).all,
      (SameElements.of_perm h.slots).all, h.emptyColumns,
      checks_all h.checks (p := ArithmeticCheck.valid ctx) fun _ _ => checkValid_content]
  have hpolicy : input.policy.valid rt ctx = input'.policy.valid rt ctx := by
    simp only [ReviewPolicy.valid, registryValid_reordered h.reviewed, hinventory, ne_eq,
      (SameElements.of_perm h.ruleSets).eq_nil, (SameElements.of_perm h.ruleSets).all]
  have hfacts : input.facts.valid = input'.facts.valid := by
    simp only [CaseFacts.valid, (SameElements.of_perm h.pairs).all,
      (SameElements.of_perm h.observed).all]
  rw [hpolicy, hfacts, registryValid_reordered h.registry]

theorem checkIds : (input.policy.inventory.checks.map ArithmeticCheck.id).Perm
    (input'.policy.inventory.checks.map ArithmeticCheck.id) := by
  have hids := h.checks.map CheckContent.id
  rwa [List.map_map, List.map_map] at hids

theorem duplicateIdentity : AppraisalReview.duplicateIdentity input.policy input.facts =
    AppraisalReview.duplicateIdentity input'.policy input'.facts := by
  have hnodup : ∀ {α : Type} [DecidableEq α] {l l' : List α}, l.Perm l' →
      decide l.Nodup = decide l'.Nodup := fun hperm => decide_eq_decide.mpr hperm.nodup_iff
  rw [AppraisalReview.duplicateIdentity, AppraisalReview.duplicateIdentity, contextKeys, contextKeys,
    hnodup (h.contexts.map _), hnodup (h.pairs.map pairKey), hnodup (h.slots.map ReviewSlot.id),
    hnodup h.checkIds, hnodup (h.observed.map ObservedValue.slotId), h.emptyColumns]

theorem violations (hids : (input.registry.documents.map SourceDocument.documentId).Nodup)
    (chosen criteria : SourceDocument) :
    (SourcePurposes.violations ⟨input.registry, chosen, criteria⟩ input.policy input.facts).Perm
      (SourcePurposes.violations ⟨input'.registry, chosen, criteria⟩ input'.policy input'.facts) := by
  have hallowed : ∀ purpose, SameElements
      (SourcePurposes.allowed ⟨input.registry, chosen, criteria⟩ purpose)
      (SourcePurposes.allowed ⟨input'.registry, chosen, criteria⟩ purpose) := by
    intro purpose document
    cases purpose with
    | case => exact Iff.rfl
    | rule => exact Iff.rfl
    | procedure =>
      simp only [SourcePurposes.allowed, List.mem_cons, List.mem_filter, h.registry.mem_iff]
  have hcheck : SourcePurposes.check ⟨input.registry, chosen, criteria⟩ =
      SourcePurposes.check ⟨input'.registry, chosen, criteria⟩ := by
    funext id refs purpose
    have hallows : SourcePurposes.allows ⟨input.registry, chosen, criteria⟩ refs purpose =
        SourcePurposes.allows ⟨input'.registry, chosen, criteria⟩ refs purpose := by
      simp only [SourcePurposes.allows, (hallowed purpose).any,
        resolves_reordered hids h.registry]
    rw [SourcePurposes.check, SourcePurposes.check, hallows]
  have hchecks : ∀ checks : List ArithmeticCheck, (checks.flatMap fun arithmetic =>
      SourcePurposes.check ⟨input'.registry, chosen, criteria⟩ ("arithmetic/" ++ arithmetic.id)
        arithmetic.evidence .procedure) = (checks.map ArithmeticCheck.content).flatMap fun content =>
      SourcePurposes.check ⟨input'.registry, chosen, criteria⟩ ("arithmetic/" ++ content.id)
        content.evidence .procedure := by
    intro checks
    rw [List.flatMap_map]
    rfl
  simp only [SourcePurposes.violations, hcheck, hchecks, h.emptyColumns]
  exact ((((((h.contexts.flatMap_right _).append (h.slots.flatMap_right _)).append
    (h.observed.flatMap_right _)).append (h.pairs.flatMap_right _)).append
    (List.Perm.refl _)).append (h.checks.flatMap_right _)).append (h.ruleSets.flatMap_right _)

theorem sourceViolations (rt : Runtime)
    (hids : (input.registry.documents.map SourceDocument.documentId).Nodup) :
    ∃ violations violations',
      AppraisalReview.sourceViolations rt input.policy input.facts input.registry input.forms
        input.criteria = .ok violations ∧
      AppraisalReview.sourceViolations rt input'.policy input'.facts input'.registry input'.forms
        input'.criteria = .ok violations' ∧ violations.Perm violations' := by
  unfold AppraisalReview.sourceViolations
  rw [← h.forms, ← h.criteria]
  rcases selected_reordered rt h.registry input.forms input.criteria with
    ⟨chosen, criteria, hs, hs'⟩ | ⟨e, e', hs, hs', hvalue, hvalue'⟩
  · rw [hs, hs']
    exact ⟨_, _, rfl, rfl, h.violations hids chosen criteria⟩
  · simp only [hs, hs', hvalue, hvalue', if_true]
    exact ⟨_, _, rfl, rfl, List.Perm.refl _⟩

end Reordered

structure DistinctIdentities (input : ReviewInput) : Prop where
  contexts : (contextKeys input.policy).Nodup
  pairs : (input.facts.pairs.map pairKey).Nodup
  slots : (input.policy.inventory.slots.map ReviewSlot.id).Nodup
  observed : (input.facts.observed.map ObservedValue.slotId).Nodup
  documents : (input.registry.documents.map SourceDocument.documentId).Nodup

theorem distinct_of_valid
    (hvalid : (input.policy.valid rt ctx && input.facts.valid && input.registry.valid) = true)
    (hdistinct : duplicateIdentity input.policy input.facts = false) :
    DistinctIdentities input := by
  rw [duplicateIdentity, Bool.not_eq_false'] at hdistinct
  simp only [Bool.and_eq_true, decide_eq_true_eq] at hdistinct
  obtain ⟨⟨⟨⟨⟨hcontexts, hpairs⟩, hslots⟩, -⟩, hobserved⟩, -⟩ := hdistinct
  simp only [Bool.and_eq_true, SourceRegistry.valid, decide_eq_true_eq] at hvalid
  exact ⟨hcontexts, hpairs, hslots, hobserved, hvalid.2.2⟩

namespace Reordered
variable (h : Reordered input input') (hd : DistinctIdentities input)
include h hd

theorem bindsIn (slot : ReviewSlot) :
    slot.bindsIn input.policy.inventory = slot.bindsIn input'.policy.inventory := by
  have hfind := (SameElements.of_perm h.contexts).find?
    (p := fun entry => decide (entry.context.key = slot.context.key)) (by
      intro x hx y hy hxkey hykey
      rw [decide_eq_true_eq] at hxkey hykey
      exact List.inj_on_of_nodup_map hd.contexts hx hy (hxkey.trans hykey.symm))
  rw [ReviewSlot.bindsIn, ReviewSlot.bindsIn, hfind]

theorem validSlots : (AppraisalReview.validSlots input.policy.inventory).Perm
    (AppraisalReview.validSlots input'.policy.inventory) := by
  unfold AppraisalReview.validSlots
  rw [List.filter_congr fun slot _ => h.bindsIn hd slot]
  exact h.slots.filter _

theorem observationOf : observationOf input.facts = observationOf input'.facts := by
  funext slotId
  apply (SameElements.of_perm h.observed).find?
  intro x hx y hy hxid hyid
  rw [decide_eq_true_eq] at hxid hyid
  exact List.inj_on_of_nodup_map hd.observed hx hy (hxid.trans hyid.symm)

theorem citationsValid : input.registry.citationsValid = input'.registry.citationsValid :=
  citationsValid_reordered hd.documents h.registry

theorem bindsSource : bindsSource input.facts input.registry =
    bindsSource input'.facts input'.registry := by
  funext slot
  rw [AppraisalReview.bindsSource, AppraisalReview.bindsSource, h.observationOf hd,
    h.citationsValid hd]

theorem inventoryFindings :
    SameElements (inventoryFindings input.policy input.facts input.registry)
      (inventoryFindings input'.policy input'.facts input'.registry) := by
  have hobserved : (input.facts.observed.all fun v =>
      decide (v.slotId ∈ input.policy.inventory.slots.map ReviewSlot.id)) =
      input'.facts.observed.all fun v =>
        decide (v.slotId ∈ input'.policy.inventory.slots.map ReviewSlot.id) := by
    rw [(SameElements.of_perm h.observed).all]
    congr 1
    funext v
    exact decide_eq_decide.mpr (h.slots.map ReviewSlot.id).mem_iff
  have hpairs : (input.facts.pairs.all fun p =>
      decide (p.context.key ∈ contextKeys input.policy)) =
      input'.facts.pairs.all fun p => decide (p.context.key ∈ contextKeys input'.policy) := by
    rw [(SameElements.of_perm h.pairs).all]
    congr 1
    funext p
    exact decide_eq_decide.mpr (h.contexts.map fun entry => entry.context.key).mem_iff
  have hbinds : (fun slot => whenever (!slot.bindsIn input.policy.inventory)
      (slotBindingFinding slot)) = fun slot =>
      whenever (!slot.bindsIn input'.policy.inventory) (slotBindingFinding slot) := by
    funext slot
    rw [h.bindsIn hd]
  have hpages : pagesCovered input.policy.inventory = pagesCovered input'.policy.inventory := by
    funext source
    rw [pagesCovered, pagesCovered, h.inspectedPages]
  have htables : tablesCovered input.policy.inventory = tablesCovered input'.policy.inventory := by
    funext source
    rw [tablesCovered, tablesCovered, h.inspectedTables]
  simp only [AppraisalReview.inventoryFindings, hobserved, hpairs, hbinds, hpages, htables,
    h.citationsValid hd, h.emptyColumns, h.unresolved, h.factsUnresolved, h.unsupported]
  have hslots := (SameElements.of_perm h.slots).flatMap fun slot =>
    whenever (!slot.bindsIn input'.policy.inventory) (slotBindingFinding slot)
  have hdocuments : ∀ f : SourceDocument → List ReviewFinding,
      SameElements (input.registry.documents.flatMap f) (input'.registry.documents.flatMap f) :=
    fun f => (SameElements.of_perm h.registry).flatMap f
  have hrefl : ∀ l : List ReviewFinding, SameElements l l := fun _ _ => Iff.rfl
  exact ((((((((hrefl _).append (hrefl _)).append hslots).append (hdocuments _)).append
    (hdocuments _)).append (hrefl _)).append (hrefl _)).append (hrefl _))

theorem bindingFindings :
    SameElements (bindingFindings input.policy input.facts input.registry)
      (bindingFindings input'.policy input'.facts input'.registry) := by
  rw [AppraisalReview.bindingFindings, AppraisalReview.bindingFindings, h.bindsSource hd]
  exact (SameElements.of_perm (h.validSlots hd)).flatMap _

theorem pairOf (context : ComparisonContext) (factor : String) :
    AppraisalReview.pairOf input.facts context factor =
      AppraisalReview.pairOf input'.facts context factor := by
  apply ((SameElements.of_perm h.pairs).filter _).find?
  intro x hx y hy hxid hyid
  rw [List.mem_filter, decide_eq_true_eq] at hx hy
  rw [decide_eq_true_eq] at hxid hyid
  exact List.inj_on_of_nodup_map hd.pairs hx.1 hy.1
    (by rw [pairKey, pairKey, hx.2, hy.2, hxid, hyid])

theorem ruleSourceValid (entry : InventoryContext) (rules : ScopedRules) :
    ruleSourceValid input.registry entry rules = ruleSourceValid input'.registry entry rules := by
  simp only [AppraisalReview.ruleSourceValid, (SameElements.of_perm h.registry).any,
    h.citationsValid hd]

theorem pairReliable (authorized : Bool) (pair : EvidencedPair) :
    pairReliable rt input.registry authorized pair =
      pairReliable rt input'.registry authorized pair := by
  have hmatches : evidenceMatches rt input.registry = evidenceMatches rt input'.registry := by
    funext evidence ref
    simp only [evidenceMatches, documentOf_reordered hd.documents h.registry]
  have hlocated : sideLocated rt input.registry pair = sideLocated rt input'.registry pair := by
    funext side
    simp only [sideLocated, hmatches, h.citationsValid hd]
  rw [AppraisalReview.pairReliable, AppraisalReview.pairReliable, hlocated]

theorem readFactors (authorized : Bool) (context : ComparisonContext) (rules : FactorRuleSet)
    (factors : List String) :
    readFactors rt input.facts input.registry authorized context rules factors =
      readFactors rt input'.facts input'.registry authorized context rules factors := by
  induction factors with
  | nil => rfl
  | cons factor rest ih =>
    have hread : readFactor rt input.facts input.registry authorized context rules factor =
        readFactor rt input'.facts input'.registry authorized context rules factor := by
      simp only [readFactor, h.pairOf hd, h.pairReliable hd]
    rw [AppraisalReview.readFactors, AppraisalReview.readFactors, hread, ih]

end Reordered

/-- Two reviews of a context with the same marks and the same expected values. -/
structure ContextReview.Alike (context context' : ContextReview) : Prop where
  findings : context.findings.map ReviewFinding.mark = context'.findings.map ReviewFinding.mark
  expected : SameElements context.expected context'.expected

namespace Reordered
variable (h : Reordered input input') (hd : DistinctIdentities input)
  (hauthorized : reviewer.authorized input = reviewer.authorized input')
include h hd

theorem contextOutcome (entry : InventoryContext) (rules : FactorRuleSet)
    (readings : ContextReadings) (evaluated : FactorReviewResult) :
    (contextOutcome rt ctx reviewer input entry rules readings evaluated).Alike
      (AppraisalReview.contextOutcome rt ctx reviewer input' entry rules readings evaluated) := by
  have hrequest : contextRequest input rules readings = contextRequest input' rules readings := by
    rw [contextRequest, contextRequest, h.identity]
  -- the report does not look at the hashes of the sources
  have hvalidation : contextValidation rt ctx reviewer input entry rules readings evaluated =
      contextValidation rt ctx reviewer input' entry rules readings evaluated := by
    rw [contextValidation, contextValidation, hrequest]
    rfl
  have hpairs : (pairsOf input.facts entry.context).Perm (pairsOf input'.facts entry.context) :=
    h.pairs.filter _
  have hcoverage : coverageFindings input.facts entry rules =
      coverageFindings input'.facts entry rules := by
    simp only [coverageFindings, (SameElements.of_perm hpairs).all]
  constructor
  · have hmarks : ∀ facts : CaseFacts, (evaluated.results.map
        (factorFinding facts entry.context rules.version)).map ReviewFinding.mark =
          evaluated.results.map fun item => (factorKey entry.context item.factorId, item.status) := by
      intro facts
      rw [List.map_map]
      rfl
    simp only [AppraisalReview.contextOutcome, List.map_append, hcoverage, hvalidation]
    exact congrArg _ ((hmarks input.facts).trans (hmarks input'.facts).symm)
  · intro e
    simp only [AppraisalReview.contextOutcome, hvalidation, List.mem_filterMap, List.mem_filter,
      (h.validSlots hd).mem_iff]
    rfl

include hauthorized in
theorem evaluateContext {entry : InventoryContext} {rules : FactorRuleSet} {context : ContextReview}
    (hrun : evaluateContext rt ctx reviewer input entry rules = .ok context) :
    ∃ context', AppraisalReview.evaluateContext rt ctx reviewer input' entry rules = .ok context' ∧
      context.Alike context' := by
  obtain ⟨readings, evaluated, he⟩ := (evaluateContext_ok rt ctx reviewer).mp hrun
  have hrequest : contextRequest input rules readings = contextRequest input' rules readings := by
    rw [contextRequest, contextRequest, h.identity]
  have hread := he.read
  have hvalid := he.requestValid
  have hevaluate := he.evaluate
  rw [h.readFactors hd, hauthorized] at hread
  rw [hrequest] at hvalid hevaluate
  refine ⟨_, (evaluateContext_ok rt ctx reviewer).mpr
    ⟨readings, evaluated, hread, hvalid, hevaluate, rfl⟩, ?_⟩
  rw [he.outcome]
  exact h.contextOutcome hd entry rules readings evaluated

include hauthorized in
theorem reviewContext {entry : InventoryContext} {context : ContextReview}
    (hrun : reviewContext rt ctx reviewer input entry = .ok context) :
    ∃ context', AppraisalReview.reviewContext rt ctx reviewer input' entry = .ok context' ∧
      context.Alike context' := by
  have happlies : ScopedRules.applies input.policy entry.context =
      ScopedRules.applies input'.policy entry.context := by
    funext rules
    rw [ScopedRules.applies, ScopedRules.applies, h.identity]
  have hperm := h.ruleSets.filter (ScopedRules.applies input.policy entry.context)
  rw [happlies] at hperm
  have hsame : ∀ findings : List ReviewFinding,
      ContextReview.Alike { findings := findings } { findings := findings } :=
    fun _ => ⟨rfl, fun _ => Iff.rfl⟩
  rw [AppraisalReview.reviewContext] at hrun ⊢
  rw [happlies] at hrun
  rcases hl : input.policy.ruleSets.filter (ScopedRules.applies input'.policy entry.context) with
    _ | ⟨first, _ | ⟨second, rest⟩⟩
  · rw [hl] at hperm hrun
    rw [List.nil_perm.mp hperm]
    cases hrun
    exact ⟨_, rfl, hsame _⟩
  · rw [hl] at hperm hrun
    rw [← List.singleton_perm.mp hperm]
    simp only [← h.ruleSourceValid hd] at hrun ⊢
    by_cases hsource : (!AppraisalReview.ruleSourceValid input.registry entry first) = true
    · rw [if_pos hsource] at hrun ⊢
      cases hrun
      exact ⟨_, rfl, hsame _⟩
    · rw [if_neg hsource] at hrun ⊢
      by_cases hnodup : entry.factorIds.Nodup
      · rw [if_neg (not_not.mpr hnodup)] at hrun ⊢
        exact h.evaluateContext hd hauthorized hrun
      · rw [if_pos hnodup] at hrun ⊢
        cases hrun
        exact ⟨_, rfl, hsame _⟩
  · rw [hl] at hperm hrun
    rcases hl' : input'.policy.ruleSets.filter
        (ScopedRules.applies input'.policy entry.context) with _ | ⟨first', _ | ⟨second', rest'⟩⟩
    · rw [hl'] at hperm
      exact absurd hperm.length_eq (by simp)
    · rw [hl'] at hperm
      exact absurd hperm.length_eq (by simp)
    · cases hrun
      exact ⟨_, rfl, hsame _⟩

include hauthorized in
theorem reviewContexts {contexts : List ContextReview}
    (hrun : List.Forall₂ (fun entry context =>
        AppraisalReview.reviewContext rt ctx reviewer input entry = .ok context)
      input.policy.inventory.contexts contexts) :
    ∃ contexts', List.Forall₂ (fun entry context =>
        AppraisalReview.reviewContext rt ctx reviewer input' entry = .ok context)
      input'.policy.inventory.contexts contexts' ∧
      SameElements ((contexts.flatMap ContextReview.findings).map ReviewFinding.mark)
        ((contexts'.flatMap ContextReview.findings).map ReviewFinding.mark) ∧
      SameElements (contexts.flatMap ContextReview.expected)
        (contexts'.flatMap ContextReview.expected) := by
  obtain ⟨middle, hmiddle, hperm⟩ := List.perm_comp_forall₂ h.contexts.symm hrun
  have hpointwise : ∀ {entries : List InventoryContext} {middle : List ContextReview},
      List.Forall₂ (fun entry context =>
        AppraisalReview.reviewContext rt ctx reviewer input entry = .ok context) entries middle →
      ∃ contexts', List.Forall₂ (fun entry context =>
        AppraisalReview.reviewContext rt ctx reviewer input' entry = .ok context) entries contexts' ∧
        List.Forall₂ ContextReview.Alike middle contexts' := by
    intro entries middle hm
    induction hm with
    | nil => exact ⟨[], List.Forall₂.nil, List.Forall₂.nil⟩
    | cons hfirst _ ih =>
      obtain ⟨first', hfirst', halike⟩ := h.reviewContext hd hauthorized hfirst
      obtain ⟨rest', hrest', hrestalike⟩ := ih
      exact ⟨first' :: rest', List.Forall₂.cons hfirst' hrest', List.Forall₂.cons halike hrestalike⟩
  obtain ⟨contexts', hcontexts', halike⟩ := hpointwise hmiddle
  refine ⟨contexts', hcontexts', ?_, ?_⟩
  · have hmarks : (middle.flatMap ContextReview.findings).map ReviewFinding.mark =
        (contexts'.flatMap ContextReview.findings).map ReviewFinding.mark := by
      clear hmiddle hcontexts' hperm
      induction halike with
      | nil => rfl
      | cons hfirst _ ih =>
        rw [List.flatMap_cons, List.flatMap_cons, List.map_append, List.map_append, ih,
          hfirst.findings]
    rw [← hmarks]
    exact ((SameElements.of_perm hperm).symm.flatMap _).map _
  · intro e
    rw [← (SameElements.of_perm hperm).flatMap ContextReview.expected e]
    simp only [List.mem_flatMap]
    constructor
    · rintro ⟨context, hcontext, he⟩
      obtain ⟨context', hcontext', hsame⟩ := forall₂_left halike hcontext
      exact ⟨context', hcontext', (hsame.expected e).mp he⟩
    · rintro ⟨context', hcontext', he⟩
      obtain ⟨context, hcontext, hsame⟩ := forall₂_right halike hcontext'
      exact ⟨context, hcontext, (hsame.expected e).mpr he⟩

end Reordered

theorem context_expected {entry : InventoryContext} {context : ContextReview}
    (hrun : reviewContext rt ctx reviewer input entry = .ok context) :
    ∃ value : ReviewSlot → Option Candidate, context.expected =
      ((validSlots input.policy.inventory).filter fun slot =>
        slot.context = entry.context).filterMap fun slot => (value slot).map fun v => (slot.id, v) := by
  rcases reviewContext_ok rt ctx reviewer hrun with ⟨finding, rfl, -⟩ |
    ⟨rules, readings, evaluated, -, he⟩
  · refine ⟨fun _ => none, ?_⟩
    symm
    rw [List.filterMap_eq_nil_iff]
    exact fun _ _ => rfl
  · rw [he.outcome]
    exact ⟨_, rfl⟩

theorem expected_unique (hd : DistinctIdentities input) {contexts : List ContextReview}
    (hrun : List.Forall₂ (fun entry context =>
        reviewContext rt ctx reviewer input entry = .ok context)
      input.policy.inventory.contexts contexts) (id : String) (v v' : Candidate)
    (hv : (id, v) ∈ contexts.flatMap ContextReview.expected)
    (hv' : (id, v') ∈ contexts.flatMap ContextReview.expected) : v = v' := by
  have horigin : ∀ v, (id, v) ∈ contexts.flatMap ContextReview.expected →
      ∃ entry ∈ input.policy.inventory.contexts, ∃ context,
        reviewContext rt ctx reviewer input entry = .ok context ∧ (id, v) ∈ context.expected := by
    intro v hv
    obtain ⟨context, hcontext, hin⟩ := List.mem_flatMap.mp hv
    obtain ⟨entry, hentry, hreview⟩ := forall₂_right hrun hcontext
    exact ⟨entry, hentry, context, hreview, hin⟩
  have hslot : ∀ {entry context v} (value : ReviewSlot → Option Candidate),
      context.expected = ((validSlots input.policy.inventory).filter fun slot =>
        decide (slot.context = entry)).filterMap (fun slot => (value slot).map fun v => (slot.id, v)) →
      (id, v) ∈ (context : ContextReview).expected → ∃ slot ∈ input.policy.inventory.slots,
        slot.id = id ∧ slot.context = entry ∧ value slot = some v := by
    intro entry context v value heq hin
    rw [heq, List.mem_filterMap] at hin
    obtain ⟨slot, hslot, hvalue⟩ := hin
    obtain ⟨v₁, hv₁, hpair⟩ := Option.map_eq_some_iff.mp hvalue
    cases hpair
    rw [List.mem_filter, decide_eq_true_eq] at hslot
    exact ⟨slot, (List.mem_filter.mp hslot.1).1, rfl, hslot.2, hv₁⟩
  obtain ⟨entry, hentry, context, hreview, hin⟩ := horigin v hv
  obtain ⟨entry', hentry', context', hreview', hin'⟩ := horigin v' hv'
  obtain ⟨value, hvalue⟩ := context_expected hreview
  obtain ⟨value', hvalue'⟩ := context_expected hreview'
  obtain ⟨slot, hmem, hid, hcontext, hs⟩ := hslot value hvalue hin
  obtain ⟨slot', hmem', hid', hcontext', hs'⟩ := hslot value' hvalue' hin'
  have hsame : slot = slot' := List.inj_on_of_nodup_map hd.slots hmem hmem' (hid.trans hid'.symm)
  subst hsame
  have hentries : entry = entry' := List.inj_on_of_nodup_map hd.contexts hentry hentry'
    (by rw [← hcontext, hcontext'])
  subst hentries
  rw [hreview] at hreview'
  cases hreview'
  obtain ⟨slot', hmem', hid', -, hs'⟩ := hslot value hvalue hin'
  have hsame : slot = slot' := List.inj_on_of_nodup_map hd.slots hmem hmem' (hid.trans hid'.symm)
  subst hsame
  rw [hs] at hs'
  exact Option.some.inj hs'

namespace Reordered
variable (h : Reordered input input') (hd : DistinctIdentities input)
include h

theorem checks_same : SameElements (input.policy.inventory.checks.map ArithmeticCheck.content)
    (input'.policy.inventory.checks.map ArithmeticCheck.content) :=
  SameElements.of_perm h.checks

theorem edge (a b : String) : Edge (checkGraph input.policy.inventory) a b ↔
    Edge (checkGraph input'.policy.inventory) a b := by
  rw [ArithmeticPlan.edge_checkGraph_content, ArithmeticPlan.edge_checkGraph_content]
  exact exists_congr fun c => and_congr_left' (h.checks_same c)

theorem cyclic (sorter sorter' : Sorter String) : (evaluationOrder sorter input.policy.inventory).2 =
    (evaluationOrder sorter' input'.policy.inventory).2 := by
  have hforth := sorter.none_of_edges sorter' (fun a b => (h.edge a b).mp)
  have hback := sorter'.none_of_edges sorter (fun a b => (h.edge a b).mpr)
  unfold evaluationOrder
  cases horder : sorter.order (checkGraph input.policy.inventory) with
  | none => rw [hforth horder]
  | some order =>
    cases horder' : sorter'.order (checkGraph input'.policy.inventory) with
    | none =>
      rw [hback horder'] at horder
      cases horder
    | some order' => rfl

include hd in
theorem graphKeys : SameElements (graphKeys input.policy.inventory)
    (AppraisalReview.graphKeys input'.policy.inventory) := by
  have htargets := h.checks.map CheckContent.target
  rw [List.map_map, List.map_map] at htargets
  intro name
  rw [AppraisalReview.graphKeys, AppraisalReview.graphKeys, Dict.mem_fromKeys, Dict.mem_fromKeys]
  exact (((h.validSlots hd).map ReviewSlot.id).append htargets).mem_iff

include hd in
theorem order : SameElements (evaluationOrder sorter input.policy.inventory).1
    (evaluationOrder sorter' input'.policy.inventory).1 := by
  have hnodes : ∀ inventory : ReviewInventory, ∀ n, n ∈ nodes (checkGraph inventory) ↔
      n ∈ AppraisalReview.graphKeys inventory ∨ ∃ b, Edge (checkGraph inventory) n b := by
    intro inventory n
    constructor
    · intro hn
      obtain ⟨⟨name, before⟩, hentry, hin⟩ := List.mem_flatMap.mp hn
      rcases List.mem_cons.mp hin with rfl | hin
      · obtain ⟨name', hname', heq⟩ := List.mem_map.mp hentry
        cases heq
        exact Or.inl hname'
      · exact Or.inr ⟨name, before, hentry, hin⟩
    · rintro (hkey | ⟨b, hedge⟩)
      · exact List.mem_flatMap.mpr ⟨_, List.mem_map.mpr ⟨n, hkey, rfl⟩, List.mem_cons_self⟩
      · exact (edge_nodes hedge).1
  have hcyclic := h.cyclic sorter sorter'
  unfold evaluationOrder at hcyclic ⊢
  cases horder : sorter.order (checkGraph input.policy.inventory) with
  | none =>
    rw [horder] at hcyclic
    cases horder' : sorter'.order (checkGraph input'.policy.inventory) with
    | none => exact h.graphKeys hd
    | some order' =>
      rw [horder'] at hcyclic
      cases hcyclic
  | some order =>
    rw [horder] at hcyclic
    cases horder' : sorter'.order (checkGraph input'.policy.inventory) with
    | none =>
      rw [horder'] at hcyclic
      cases hcyclic
    | some order' =>
      intro n
      simp only [(sorter.sorts horder).covers, (sorter'.sorts horder').covers, hnodes,
        h.graphKeys hd n, h.edge]

theorem requiredIds : SameElements (requiredIds input) (AppraisalReview.requiredIds input') := by
  have hchecks := h.checkIds.map arithmeticId
  rw [List.map_map, List.map_map] at hchecks
  unfold AppraisalReview.requiredIds
  rw [h.unclaimed, h.unclaimed']
  exact (((SameElements.of_perm (h.slots.map _)).append
    ((SameElements.of_perm h.contexts).flatMap _)).append (fun _ => Iff.rfl)).append
    (SameElements.of_perm hchecks)

theorem before (hd : DistinctIdentities input)
    (hauthorized : reviewer.authorized input = reviewer.authorized input') (t t' : ReviewTrace)
    (hmatched : t.matched = t'.matched) (hviolations : t.violations.Perm t'.violations)
    (hcontexts : SameElements ((t.contexts.flatMap ContextReview.findings).map ReviewFinding.mark)
      ((t'.contexts.flatMap ContextReview.findings).map ReviewFinding.mark)) :
    SameElements ((t.before reviewer input).map ReviewFinding.mark)
      ((t'.before reviewer input').map ReviewFinding.mark) := by
  have hopening : SameElements (t.opening reviewer input) (t'.opening reviewer input') := by
    unfold ReviewTrace.opening
    rw [hauthorized, hmatched]
    exact SameElements.append (fun _ => Iff.rfl) (SameElements.of_perm (hviolations.map _))
  unfold ReviewTrace.before
  rw [h.unclaimed, h.unclaimed']
  simp only [List.map_append, claimedFindings, List.append_nil]
  exact (((hopening.map _).append ((h.inventoryFindings hd).map _)).append
    ((h.bindingFindings hd).map _)).append hcontexts

theorem plan (hd : DistinctIdentities input)
    (hauthorized : reviewer.authorized input = reviewer.authorized input')
    (sorter sorter' : Sorter String) (t t' : ReviewTrace)
    (hvalid : (input.policy.valid rt ctx && input.facts.valid && input.registry.valid) = true)
    (hrun : List.Forall₂ (fun entry context =>
        AppraisalReview.reviewContext rt ctx reviewer input entry = .ok context)
      input.policy.inventory.contexts t.contexts)
    (hviolations : t.violations.Perm t'.violations)
    (hexpected : SameElements (t.contexts.flatMap ContextReview.expected)
      (t'.contexts.flatMap ContextReview.expected))
    (hbefore : SameElements ((t.before reviewer input).map ReviewFinding.mark)
      ((t'.before reviewer input').map ReviewFinding.mark)) :
    (t.plan reviewer sorter input).Alike (t'.plan reviewer sorter' input') := by
  have hunique := expected_unique hd hrun
  have hunique' : ∀ id v v', (id, v) ∈ t'.contexts.flatMap ContextReview.expected →
      (id, v') ∈ t'.contexts.flatMap ContextReview.expected → v = v' :=
    fun id v v' hv hv' => hunique id v v' ((hexpected _).mpr hv) ((hexpected _).mpr hv')
  have hchecks : ∀ check ∈ input.policy.inventory.checks, check.inputs ≠ [] ∧
      (check.kind = .equals → check.inputs.length = 1) := by
    intro check hcheck
    simp only [Bool.and_eq_true, ReviewPolicy.valid, ReviewInventory.valid, List.all_eq_true,
      ArithmeticCheck.valid] at hvalid
    have hthis := hvalid.1.1.1.1.2.1.2 check hcheck
    simp only [decide_eq_true_eq, Bool.or_eq_true] at hthis
    refine ⟨hthis.1.1.1.1.1.1, fun hequals => ?_⟩
    exact hthis.1.2.resolve_left (fun hne => hne hequals)
  exact {
    slotIds := SameElements.of_perm ((h.validSlots hd).map ReviewSlot.id)
    boundSlot := by
      funext name
      simp only [ArithmeticPlan.boundSlot, ReviewTrace.plan, h.bindsSource hd]
      apply (SameElements.of_perm (h.validSlots hd)).find?
      intro x hx y hy hxid hyid
      rw [Bool.and_eq_true, decide_eq_true_eq] at hxid hyid
      exact List.inj_on_of_nodup_map hd.slots (List.mem_filter.mp hx).1 (List.mem_filter.mp hy).1
        (hxid.1.trans hyid.1.symm)
    observation := h.observationOf hd
    citations := h.citationsValid hd
    checks := h.checks_same
    nonempty := fun check hcheck => (hchecks check hcheck).1
    single := fun check hcheck => (hchecks check hcheck).2
    independent := by
      funext target
      apply Option.ext
      intro v
      simp only [ArithmeticPlan.independent, ReviewTrace.plan]
      rw [find?_value hunique, find?_value hunique', hexpected]
    sourceTrust := by
      have hempty : t.violations.isEmpty = t'.violations.isEmpty := by
        rw [Bool.eq_iff_iff, List.isEmpty_iff, List.isEmpty_iff,
          (SameElements.of_perm hviolations).eq_nil]
      simp only [ReviewTrace.plan, hauthorized, hempty, trustBroken_same hbefore]
    cyclic := h.cyclic sorter sorter' }

theorem trace (hauthorized : reviewer.authorized input = reviewer.authorized input')
    (sorter' : Sorter String) {t : ReviewTrace} (ht : t.Records rt .exact reviewer sorter input)
    (hmatched : sourcesMatch rt input'.policy.registry input'.registry = .ok t.matched) :
    ∃ t' : ReviewTrace, t'.Records rt .exact reviewer sorter' input' ∧
      SameOutcome (t.result reviewer input) (t'.result reviewer input') := by
  have hd := distinct_of_valid ht.valid ht.distinct
  obtain ⟨violations, violations', hv, hv', hviolations⟩ :=
    h.sourceViolations rt hd.documents
  rw [ht.violations] at hv
  cases hv
  obtain ⟨contexts', hcontexts', hmarks, hexpected⟩ := h.reviewContexts hd hauthorized ht.contexts
  -- the plan does not depend on the arithmetic findings, which come last
  let opened : ReviewTrace := ⟨t.matched, violations', contexts', [], Dict.empty⟩
  have hbefore := h.before hd hauthorized t opened rfl hviolations hmarks
  have hplan := h.plan hd hauthorized sorter sorter' t opened ht.valid
    ht.contexts hviolations hexpected hbefore
  obtain ⟨hordered, -⟩ := evaluationOrder_ordered sorter input.policy.inventory
    (t.plan reviewer sorter input) rfl rfl
  obtain ⟨hordered', -⟩ := evaluationOrder_ordered sorter' input'.policy.inventory
    (opened.plan reviewer sorter' input') rfl rfl
  obtain ⟨arithmetic', numbers', hsettle, harithmetic⟩ :=
    hplan.settle rt hordered hordered' (h.order hd) ht.arithmetic
  refine ⟨⟨t.matched, violations', contexts', arithmetic', numbers'⟩, ?_, ?_⟩
  · exact {
      valid := by rw [← h.valid rt .exact]; exact ht.valid
      identity := by rw [← h.factsIdentity, ← h.identity]; exact ht.identity
      matched := hmatched
      violations := hv'
      distinct := by rw [← h.duplicateIdentity]; exact ht.distinct
      contexts := hcontexts'
      arithmetic := hsettle }
  · apply finish_same
    · rw [List.map_append, List.map_append]
      exact hbefore.append harithmetic
    · exact (SameElements.append (fun _ => Iff.rfl)
        (SameElements.of_perm (hviolations.map _))).append h.requiredIds

theorem review (hauthorized : reviewer.authorized input = reviewer.authorized input')
    (sorter' : Sorter String) {r : CaseReviewResult} (hrun : review rt .exact reviewer sorter input = .ok r)
    (hsources : (input.policy.valid rt .exact && input.facts.valid && input.registry.valid) = true →
      input.facts.identity = input.policy.identity → ∀ matched,
      sourcesMatch rt input.policy.registry input.registry = .ok matched →
        sourcesMatch rt input'.policy.registry input'.registry = .ok matched) :
    ∃ r', AppraisalReview.review rt .exact reviewer sorter' input' = .ok r' ∧ SameOutcome r r' := by
  have hrefl : ∀ {α : Type} (l : List α), SameElements l l := fun _ _ => Iff.rfl
  have hvalid := h.valid rt .exact
  cases (review_ok_iff rt .exact reviewer sorter).mp hrun with
  | invalid hinvalid hr =>
    refine ⟨_, (review_ok_iff rt .exact reviewer sorter').mpr (.invalid (hvalid ▸ hinvalid) rfl), ?_⟩
    exact hr ▸ finish_same (hrefl _) (hrefl _)
  | identity hok hmismatch hr =>
    have hmismatch' : input'.facts.identity ≠ input'.policy.identity := by
      rw [← h.factsIdentity, ← h.identity]
      exact hmismatch
    refine ⟨_, (review_ok_iff rt .exact reviewer sorter').mpr
      (.identity (hvalid ▸ hok) hmismatch' rfl), ?_⟩
    exact hr ▸ finish_same (hrefl _) (hrefl _)
  | duplicate t hok hidentity hmatched hviolations hduplicate hr =>
    have hids : (input.registry.documents.map SourceDocument.documentId).Nodup := by
      simp only [Bool.and_eq_true, SourceRegistry.valid, decide_eq_true_eq] at hok
      exact hok.2.2
    obtain ⟨violations, violations', hv, hv', hperm⟩ := h.sourceViolations rt hids
    rw [hviolations] at hv
    cases hv
    have hidentity' : input'.facts.identity = input'.policy.identity := by
      rw [← h.factsIdentity, ← h.identity]
      exact hidentity
    have hduplicate' : AppraisalReview.duplicateIdentity input'.policy input'.facts = true := by
      rw [← h.duplicateIdentity]
      exact hduplicate
    refine ⟨_, (review_ok_iff rt .exact reviewer sorter').mpr
      (.duplicate ⟨t.matched, violations', [], [], Dict.empty⟩ (hvalid ▸ hok) hidentity'
        (hsources hok hidentity _ hmatched) hv' hduplicate' rfl), ?_⟩
    rw [hr]
    have hviolations' := SameElements.of_perm (hperm.map violationFinding)
    apply finish_same
    · unfold ReviewTrace.opening
      rw [hauthorized]
      exact ((SameElements.append (hrefl _) hviolations').append (hrefl _)).map _
    · exact SameElements.append (hrefl _) (SameElements.of_perm (hperm.map _))
  | complete t ht hr =>
    obtain ⟨t', ht', hsame⟩ := h.trace hauthorized sorter' ht
      (hsources ht.valid ht.identity _ ht.matched)
    exact ⟨_, (review_ok_iff rt .exact reviewer sorter').mpr (.complete t' ht' rfl), hr ▸ hsame⟩

end Reordered

/-- The outcome of a review does not depend on the order of the case's material,
nor on the order the sorter chooses. Current sources in another order do not make
a review raise either; only the reviewed ones, compared first to last, can. -/
theorem review_order_insensitive (h : Reordered input input')
    (hauthorized : reviewer.authorized input = reviewer.authorized input')
    (sorter sorter' : Sorter String) {r : CaseReviewResult}
    (hrun : review rt .exact reviewer sorter input = .ok r) :
    (∀ r', review rt .exact reviewer sorter' input' = .ok r' → SameOutcome r r') ∧
    (input.policy.registry = input'.policy.registry →
      ∃ r', review rt .exact reviewer sorter' input' = .ok r' ∧ SameOutcome r r') := by
  have hregistries : (input.policy.valid rt .exact && input.facts.valid && input.registry.valid) =
      true → (input.policy.registry.documents.map SourceDocument.documentId).Nodup ∧
        (input.registry.documents.map SourceDocument.documentId).Nodup := by
    intro hok
    simp only [Bool.and_eq_true, ReviewPolicy.valid, SourceRegistry.valid, decide_eq_true_eq] at hok
    exact ⟨hok.1.1.1.1.1.2, hok.2.2⟩
  constructor
  · intro r' hrun'
    obtain ⟨r'', hrun'', hsame⟩ := h.review hauthorized sorter' hrun (by
      intro hok hidentity matched hmatched
      have hcompared : ∃ matched',
          sourcesMatch rt input'.policy.registry input'.registry = .ok matched' := by
        cases (review_ok_iff rt .exact reviewer sorter').mp hrun' with
        | invalid hinvalid _ =>
          rw [h.valid rt .exact, hinvalid] at hok
          cases hok
        | identity _ hmismatch _ =>
          rw [← h.factsIdentity, ← h.identity] at hmismatch
          exact absurd hidentity hmismatch
        | duplicate t _ _ hmatched' => exact ⟨_, hmatched'⟩
        | complete t ht => exact ⟨_, ht.matched⟩
      obtain ⟨matched', hmatched'⟩ := hcompared
      rw [sourcesMatch_agree h.reviewed h.registry hmatched hmatched']
      exact hmatched')
    rw [hrun'] at hrun''
    cases hrun''
    exact hsame
  · intro hreviewed
    apply h.review hauthorized sorter' hrun
    intro hok _ matched hmatched
    rw [← hreviewed]
    obtain ⟨hids, hcurrent⟩ := hregistries hok
    exact sourcesMatch_reordered hids hcurrent h.registry hmatched

/-- The sample case with its sources, slots and observations in the other order. -/
def sampleReordered : ReviewInput where
  policy := ⟨sampleIdentity, sampleRegistry,
    { sampleInventory with slots := sampleInventory.slots.reverse }, [sampleRules]⟩
  facts := { sampleFacts with observed := sampleFacts.observed.reverse }
  registry := ⟨sampleRegistry.documents.reverse⟩

theorem review_order_insensitive_sample : ∃ r r',
    review sampleRuntime .exact sampleReviewer Sorter.kahn sampleInput = .ok r ∧
    review sampleRuntime .exact sampleReviewer Sorter.kahn sampleReordered = .ok r' ∧
    SameOutcome r r' := by
  have hreordered : Reordered sampleInput sampleReordered := by
    constructor
    case slots => exact (List.reverse_perm _).symm
    case observed => exact (List.reverse_perm _).symm
    case registry => exact (List.reverse_perm _).symm
    all_goals rfl
  have hok : (review sampleRuntime .exact sampleReviewer Sorter.kahn sampleInput).isOk = true := by
    decide +kernel
  cases hrun : review sampleRuntime .exact sampleReviewer Sorter.kahn sampleInput with
  | error e => rw [hrun] at hok; cases hok
  | ok r =>
    obtain ⟨r', hrun', hsame⟩ :=
      (review_order_insensitive hreordered rfl Sorter.kahn Sorter.kahn hrun).2 rfl
    exact ⟨r, r', rfl, hrun', hsame⟩

end AppraisalReview
