import AppraisalReview.ActionPolicy
import AppraisalReview.JobEffects

set_option autoImplicit false

/-!
# Derived actions are exactly the permitted ones

The registry keeps two rules of one kind apart, so a snapshot fires at most one
of them. Every action that fires passes the validators downstream, except that
only source actions do without rules.
-/
namespace AppraisalReview.ActionPolicy
open Raising
open RunLedger (Budget)
variable {sources : List DocumentReference → Digest}

structure RuleChecked (rule : ActionPolicyRule) : Prop where
  actionId : ∃ actionId, OpaqueID.parse rule.actionId = .ok actionId
  states : rule.states ≠ [] ∧ rule.states.Nodup
  prerequisites : rule.prerequisites.Nodup
  purposes : rule.documentPurposes.Nodup
  retryCost : 0 ≤ rule.retryCost
  source : rule.action.isSource = !rule.documentPurposes.isEmpty
  reference : rule.action = .reference →
    rule.documentPurposes.all (fun p => p = .reference || p = .brief) = true
  template : .template ∉ rule.documentPurposes

theorem check_ok {rule : ActionPolicyRule} (h : rule.check = .ok ()) : RuleChecked rule := by
  simp only [ActionPolicyRule.check, bind_ok, error_bind, guard_ok, not_or, not_not, not_and,
    not_lt] at h
  obtain ⟨actionId, hid, hstates, hprerequisites, hpurposes, hcost, hsource, hreference,
    htemplate, -⟩ := h
  exact ⟨⟨actionId, hid⟩, hstates, hprerequisites, hpurposes, hcost, hsource, hreference,
    htemplate⟩

theorem registerStates_ok {action : ActionKind} {states : List WorkflowState}
    {registered registered' : List (WorkflowState × ActionKind)}
    (h : registerStates action states registered = .ok registered') :
    (∀ state ∈ states, (state, action) ∉ registered) ∧
      (∀ state ∈ states, (state, action) ∈ registered') ∧ registered ⊆ registered' := by
  induction states generalizing registered with
  | nil =>
    cases h
    exact ⟨by simp, by simp, List.Subset.refl _⟩
  | cons state rest ih =>
    rw [registerStates, guard_ok] at h
    obtain ⟨hnew, h⟩ := h
    obtain ⟨hfresh, hadded, hkept⟩ := ih h
    refine ⟨?_, ?_, fun p hp => hkept (List.mem_cons_of_mem _ hp)⟩
    · intro other hother
      rcases List.mem_cons.mp hother with rfl | hother
      · exact hnew
      · exact fun hin => hfresh other hother (List.mem_cons_of_mem _ hin)
    · intro other hother
      rcases List.mem_cons.mp hother with rfl | hother
      · exact hkept List.mem_cons_self
      · exact hadded other hother

def Apart (a b : ActionPolicyRule) : Prop :=
  a.action = b.action → ∀ state ∈ a.states, state ∉ b.states

theorem registerRules_ok {rules : List ActionPolicyRule}
    {registered : List (WorkflowState × ActionKind)} (h : registerRules rules registered = .ok ()) :
    (∀ rule ∈ rules, RuleChecked rule) ∧ rules.Pairwise Apart ∧
      ∀ rule ∈ rules, ∀ state ∈ rule.states, (state, rule.action) ∉ registered := by
  induction rules generalizing registered with
  | nil => exact ⟨by simp, .nil, by simp⟩
  | cons rule rest ih =>
    simp only [registerRules, bind_ok] at h
    obtain ⟨⟨⟩, hcheck, registered', hstates, h⟩ := h
    obtain ⟨hchecked, hapart, hunused⟩ := ih h
    obtain ⟨hfresh, hadded, hkept⟩ := registerStates_ok hstates
    refine ⟨List.forall_mem_cons.mpr ⟨check_ok hcheck, hchecked⟩,
      List.pairwise_cons.mpr ⟨?_, hapart⟩, List.forall_mem_cons.mpr ⟨hfresh, ?_⟩⟩
    · intro other hother haction state hstate hin
      exact hunused other hother state hin (by rw [← haction]; exact hadded state hstate)
    · exact fun other hother state hstate hin => hunused other hother state hstate (hkept hin)

structure Registered (rules : List ActionPolicyRule) : Prop where
  ids : rules.Pairwise fun a b => a.actionId ≠ b.actionId
  checked : ∀ rule ∈ rules, RuleChecked rule
  apart : rules.Pairwise Apart

theorem ControlledActionPolicy.registered (policy : ControlledActionPolicy) :
    Registered policy.rules := by
  have h := policy.registry
  rw [validateRegistry, guard_ok, not_not] at h
  obtain ⟨hchecked, hapart, -⟩ := registerRules_ok h.2
  exact ⟨List.pairwise_map.mp h.1, hchecked, hapart⟩

/-- The conditions on state, prerequisites, blockers, budget and purposes. -/
def Fires (policy : ControlledActionPolicy) (snapshot : WorkflowSnapshot sources)
    (rule : ActionPolicyRule) : Prop :=
  snapshot.state ∈ rule.states ∧
    (∀ prerequisite ∈ rule.prerequisites, prerequisite ∈ snapshot.satisfiedPrerequisites) ∧
    (rule.requiresBlockers = true → snapshot.unresolvedBlockers ≠ []) ∧
    (1 ≤ snapshot.budget.stepsRemaining ∧
      policy.modelCost ≤ snapshot.budget.modelCallsRemaining ∧
      rule.retryCost ≤ snapshot.budget.retriesRemaining ∧
      snapshot.budget.timeRemainingMs ≠ some 0) ∧
    (rule.documentPurposes = [] ∨ ∃ document ∈ snapshot.revision.documents,
      document.purpose ∈ rule.documentPurposes)

structure Grants (policy : ControlledActionPolicy) (snapshot : WorkflowSnapshot sources)
    (rule : ActionPolicyRule) (action : AllowedAction) : Prop where
  actionId : action.actionId.text = rule.actionId
  kind : action.action = rule.action
  states : action.permittedStates = rule.states
  purposes : action.permittedDocumentPurposes = permittedPurposes snapshot rule
  revision : action.revision = snapshot.revision.reference
  rules : action.rules = snapshot.revision.rules
  proposer : action.proposerKinds = [policy.proposerKind]
  prerequisites : action.prerequisites = rule.prerequisites
  cost : action.cost = ⟨1, policy.modelCost, rule.retryCost⟩

theorem permittedPurposes_eq_nil {snapshot : WorkflowSnapshot sources} {rule : ActionPolicyRule} :
    permittedPurposes snapshot rule = [] ↔
      ¬ ∃ document ∈ snapshot.revision.documents, document.purpose ∈ rule.documentPurposes := by
  simp only [permittedPurposes, List.filter_eq_nil_iff, decide_eq_true_eq, List.mem_map,
    not_exists, not_and]
  constructor
  · exact fun h document hdocument hin => h _ hin document hdocument rfl
  · rintro h purpose hin document hdocument rfl
    exact h document hdocument hin

theorem ControlledActionPolicy.modelCost_nonneg (policy : ControlledActionPolicy) :
    0 ≤ policy.modelCost := by
  unfold modelCost
  split_ifs <;> omega

theorem parse_text {text : String} {id : OpaqueID} (h : OpaqueID.parse text = .ok id) :
    id.text = text := by
  unfold OpaqueID.parse at h
  split_ifs at h
  cases h
  rfl

theorem deriveRule_withheld {policy : ControlledActionPolicy} {snapshot : WorkflowSnapshot sources}
    {rule : ActionPolicyRule} (h : ¬ Fires policy snapshot rule) :
    deriveRule policy snapshot rule = .ok none := by
  unfold deriveRule
  by_cases hstate : snapshot.state ∉ rule.states
  · rw [if_pos hstate]
  rw [if_neg hstate]
  by_cases hprerequisites : ¬ rule.prerequisites.all (· ∈ snapshot.satisfiedPrerequisites)
  · rw [if_pos hprerequisites]
  rw [if_neg hprerequisites]
  by_cases hblockers : rule.requiresBlockers ∧ snapshot.unresolvedBlockers = []
  · rw [if_pos hblockers]
  rw [if_neg hblockers]
  split_ifs with hbudget hpurposes
  · rfl
  · rfl
  · refine absurd ⟨not_not.mp hstate, by simpa using hprerequisites, ?_, ?_, ?_⟩ h
    · exact fun hrequires hnone => hblockers ⟨hrequires, hnone⟩
    · simpa only [not_or, not_lt] using hbudget
    · rw [permittedPurposes_eq_nil] at hpurposes
      tauto

theorem boundedAuthority_grants {policy : ControlledActionPolicy}
    {snapshot : WorkflowSnapshot sources} {rule : ActionPolicyRule} {action : AllowedAction}
    (checked : RuleChecked rule) (fires : Fires policy snapshot rule)
    (grants : Grants policy snapshot rule action)
    (ruled : snapshot.revision.rules ≠ [] ∨ rule.action.isSource = true) :
    action.boundedAuthority = .ok action := by
  obtain ⟨-, hkind, hstates, hpurposes, -, hrules, hproposer, hprerequisites, hcost⟩ := grants
  have hvalid : action.cost.valid = true := by
    simp [hcost, ActionCost.valid, checked.retryCost, policy.modelCost_nonneg]
  have hunique : (permittedPurposes snapshot rule).Nodup := checked.purposes.filter _
  have hsource : rule.action.isSource = !(permittedPurposes snapshot rule).isEmpty := by
    rw [checked.source]
    congr 1
    rcases fires.2.2.2.2 with hnone | hsome
    · simp [permittedPurposes, hnone]
    · obtain ⟨document, hdocument, hin⟩ := id hsome
      have hne : permittedPurposes snapshot rule ≠ [] :=
        fun h => permittedPurposes_eq_nil.mp h hsome
      rw [Bool.eq_iff_iff, List.isEmpty_iff, List.isEmpty_iff]
      exact iff_of_false (List.ne_nil_of_mem hin) hne
  unfold AllowedAction.boundedAuthority
  rw [hkind, hstates, hpurposes, hproposer, hprerequisites, hrules]
  rw [if_neg (by simp [checked.states.1, hvalid]), if_neg (by tauto),
    if_neg (not_not.mpr checked.states.2),
    if_neg (not_not.mpr hunique), if_neg (by simp),
    if_neg (not_not.mpr checked.prerequisites), if_neg (not_not.mpr hsource), if_neg, if_neg,
    if_neg]
  · cases hproposerKind : policy.proposerKind <;>
      simp [hcost, ControlledActionPolicy.modelCost, hproposerKind]
  · exact fun h => checked.template (List.mem_of_mem_filter h.2)
  · rintro ⟨hreference, hall⟩
    refine hall (List.all_eq_true.mpr fun purpose hpurpose => ?_)
    exact List.all_eq_true.mp (checked.reference hreference) purpose (List.mem_of_mem_filter hpurpose)

theorem deriveRule_fires {policy : ControlledActionPolicy} {snapshot : WorkflowSnapshot sources}
    {rule : ActionPolicyRule} (fires : Fires policy snapshot rule) :
    deriveRule policy snapshot rule = (do
      let actionId ← OpaqueID.parse rule.actionId
      let action ← AllowedAction.boundedAuthority {
        actionId := actionId
        action := rule.action
        permittedStates := rule.states
        permittedDocumentPurposes := permittedPurposes snapshot rule
        revision := snapshot.revision.reference
        rules := snapshot.revision.rules
        proposerKinds := [policy.proposerKind]
        prerequisites := rule.prerequisites
        cost := { steps := 1, modelCalls := policy.modelCost, retries := rule.retryCost } }
      .ok (some action)) := by
  obtain ⟨hstate, hprerequisites, hblockers, hbudget, hpurposes⟩ := fires
  rw [deriveRule, if_neg (not_not.mpr hstate), if_neg (by simpa using hprerequisites),
    if_neg (by tauto), if_neg (by simpa only [not_or, not_lt] using hbudget), if_neg]
  rw [permittedPurposes_eq_nil]
  rcases hpurposes with hnone | hsome
  · exact fun h => h.1 hnone
  · exact fun h => h.2 hsome

theorem deriveRule_grants {policy : ControlledActionPolicy} {snapshot : WorkflowSnapshot sources}
    {rule : ActionPolicyRule} (checked : RuleChecked rule) (fires : Fires policy snapshot rule)
    (ruled : snapshot.revision.rules ≠ [] ∨ rule.action.isSource = true) :
    ∃ action, deriveRule policy snapshot rule = .ok (some action) ∧
      Grants policy snapshot rule action := by
  obtain ⟨actionId, hid⟩ := checked.actionId
  have grants : Grants policy snapshot rule {
      actionId := actionId
      action := rule.action
      permittedStates := rule.states
      permittedDocumentPurposes := permittedPurposes snapshot rule
      revision := snapshot.revision.reference
      rules := snapshot.revision.rules
      proposerKinds := [policy.proposerKind]
      prerequisites := rule.prerequisites
      cost := { steps := 1, modelCalls := policy.modelCost, retries := rule.retryCost } } :=
    ⟨parse_text hid, rfl, rfl, rfl, rfl, rfl, rfl, rfl, rfl⟩
  refine ⟨_, ?_, grants⟩
  rw [deriveRule_fires fires, hid]
  exact bind_ok.mpr ⟨actionId, rfl,
    bind_ok.mpr ⟨_, boundedAuthority_grants checked fires grants ruled, rfl⟩⟩

theorem deriveRule_refused {policy : ControlledActionPolicy} {snapshot : WorkflowSnapshot sources}
    {rule : ActionPolicyRule} (checked : RuleChecked rule) (fires : Fires policy snapshot rule)
    (unruled : snapshot.revision.rules = []) (control : rule.action.isSource = false) :
    deriveRule policy snapshot rule =
      .error (.valueError "Only preparation source actions may omit rules") := by
  obtain ⟨actionId, hid⟩ := checked.actionId
  rw [deriveRule_fires fires, hid]
  change (AllowedAction.boundedAuthority _ >>= _) = _
  have hcost : ActionCost.valid ⟨1, policy.modelCost, rule.retryCost⟩ = true := by
    simp [ActionCost.valid, checked.retryCost, policy.modelCost_nonneg]
  rw [AllowedAction.boundedAuthority, if_neg (by simp [checked.states.1, hcost]),
    if_pos (by simp [unruled, control])]
  rfl

theorem deriveRule_some {policy : ControlledActionPolicy} {snapshot : WorkflowSnapshot sources}
    {rule : ActionPolicyRule} {action : AllowedAction} (checked : RuleChecked rule)
    (h : deriveRule policy snapshot rule = .ok (some action)) :
    Fires policy snapshot rule ∧ Grants policy snapshot rule action := by
  by_cases fires : Fires policy snapshot rule
  · refine ⟨fires, ?_⟩
    by_cases ruled : snapshot.revision.rules ≠ [] ∨ rule.action.isSource = true
    · obtain ⟨action', haction, grants⟩ := deriveRule_grants checked fires ruled
      rw [h] at haction
      cases haction
      exact grants
    · rw [not_or, not_not, Bool.not_eq_true] at ruled
      rw [deriveRule_refused checked fires ruled.1 ruled.2] at h
      cases h
  · rw [deriveRule_withheld fires] at h
    cases h

/-- Preparation, which has no rules, fires source rules only. -/
def Supported (policy : ControlledActionPolicy) (snapshot : WorkflowSnapshot sources) : Prop :=
  snapshot.revision.isSource = true →
    ∀ rule ∈ policy.rules, rule.action.isSource = false → ¬ Fires policy snapshot rule

theorem deriveRule_ok {policy : ControlledActionPolicy} {snapshot : WorkflowSnapshot sources}
    (supported : Supported policy snapshot) {rule : ActionPolicyRule} (hrule : rule ∈ policy.rules) :
    ∃ result, deriveRule policy snapshot rule = .ok result := by
  by_cases fires : Fires policy snapshot rule
  · have ruled : snapshot.revision.rules ≠ [] ∨ rule.action.isSource = true := by
      by_contra hneither
      rw [not_or, not_not, Bool.not_eq_true] at hneither
      exact supported (snapshot.revision.rules_eq_nil.mp hneither.1) rule hrule hneither.2 fires
    obtain ⟨action, haction, -⟩ :=
      deriveRule_grants (policy.registered.checked rule hrule) fires ruled
    exact ⟨_, haction⟩
  · exact ⟨none, deriveRule_withheld fires⟩

/-- What `derive` promises about its set. -/
structure Exact (digest : WorkflowSnapshot sources → Digest) (policy : ControlledActionPolicy)
    (snapshot : WorkflowSnapshot sources) (set : AllowedActionSet) : Prop where
  permitted : ∀ rule ∈ policy.rules,
    (∃ action ∈ set.actions, Grants policy snapshot rule action) ↔ Fires policy snapshot rule
  granted : ∀ action ∈ set.actions, ∃ rule ∈ policy.rules, Grants policy snapshot rule action
  kinds : (set.actions.map AllowedAction.action).Nodup
  accepted : ∀ evidence : List SourceCitation,
    (∀ citation ∈ evidence, citation.ofDocuments snapshot.revision.documents = true) →
    SelectorInput.exactAuthority digest ⟨snapshot, set, evidence, snapshot.budget⟩ =
      .ok ⟨snapshot, set, evidence, snapshot.budget⟩

section
variable {digest : WorkflowSnapshot sources → Digest} {policy : ControlledActionPolicy}
variable {snapshot : WorkflowSnapshot sources} {results : List (Option AllowedAction)}

def derived (digest : WorkflowSnapshot sources → Digest) (policy : ControlledActionPolicy)
    (snapshot : WorkflowSnapshot sources) (results : List (Option AllowedAction)) :
    AllowedActionSet where
  policyVersion := policy.policyVersion
  snapshotDigest := digest snapshot
  revision := snapshot.revision.reference
  documents := snapshot.revision.documents
  rules := snapshot.revision.rules
  actions := results.filterMap id

variable (each : List.Forall₂ (fun rule result => deriveRule policy snapshot rule = .ok result)
  policy.rules results)
include each

theorem derived_from {action : AllowedAction} (h : action ∈ results.filterMap id) :
    ∃ rule ∈ policy.rules, Fires policy snapshot rule ∧ Grants policy snapshot rule action := by
  obtain ⟨_, hmem, rfl⟩ := List.mem_filterMap.mp h
  obtain ⟨rule, hrule, hresult⟩ := forall₂_right each hmem
  exact ⟨rule, hrule, deriveRule_some (policy.registered.checked rule hrule) hresult⟩

theorem derived_pairwise : (results.filterMap id).Pairwise fun a b =>
    a.actionId ≠ b.actionId ∧ a.action ≠ b.action := by
  have registered := policy.registered
  have pairs := (registered.ids.and registered.apart).and
    (List.pairwise_iff_forall_sublist.mpr fun {a b} hsub =>
      (⟨registered.checked a (hsub.subset (by simp)), registered.checked b (hsub.subset (by simp))⟩ :
        RuleChecked a ∧ RuleChecked b))
  refine pairwise_filterMap each pairs ?_
  rintro a b x y hx hy ⟨⟨hids, hapart⟩, hchecked, hchecked'⟩
  obtain ⟨fires, grants⟩ := deriveRule_some hchecked hx
  obtain ⟨fires', grants'⟩ := deriveRule_some hchecked' hy
  constructor
  · intro hsame
    exact hids (by rw [← grants.actionId, ← grants'.actionId, hsame])
  · intro hsame
    rw [grants.kind, grants'.kind] at hsame
    exact hapart hsame _ fires.1 fires'.1

theorem derived_unambiguous :
    (derived digest policy snapshot results).unambiguousRegistry =
      .ok (derived digest policy snapshot results) := by
  have pairwise := derived_pairwise each
  unfold AllowedActionSet.unambiguousRegistry
  rw [if_neg (by have := snapshot.revision.minDocuments; simp only [derived]; omega), if_neg,
    if_neg, if_neg, if_neg]
  · simp only [List.any_eq_true, decide_eq_true_eq, not_exists, not_and, not_or, not_not]
    intro action haction
    obtain ⟨rule, -, -, grants⟩ := derived_from each haction
    refine ⟨grants.revision, grants.rules, ?_⟩
    rw [grants.purposes, List.all_eq_true]
    intro purpose hpurpose
    exact (List.mem_filter.mp hpurpose).2
  · simp only [not_or, not_not, List.any_eq_true, decide_eq_true_eq, not_exists, not_and]
    exact ⟨snapshot.revision.sameCase, snapshot.revision.distinctDocuments⟩
  · exact not_not.mpr (List.pairwise_map.mpr (pairwise.imp And.right))
  · exact not_not.mpr (List.pairwise_map.mpr (pairwise.imp And.left))

theorem derived_exact (supported : Supported policy snapshot) :
    Exact digest policy snapshot (derived digest policy snapshot results) where
  permitted := by
    intro rule hrule
    constructor
    · rintro ⟨action, haction, grants⟩
      obtain ⟨rule', hrule', fires, grants'⟩ := derived_from each haction
      -- Rules with one id are one rule.
      have hsame : rule = rule' := by
        by_contra hne
        have ids : (policy.rules.map ActionPolicyRule.actionId).Nodup :=
          List.pairwise_map.mpr policy.registered.ids
        exact hne (List.inj_on_of_nodup_map ids hrule hrule'
          (by rw [← grants.actionId, ← grants'.actionId]))
      rw [hsame]
      exact fires
    · intro fires
      obtain ⟨result, hresult, hmem⟩ := forall₂_left each hrule
      have ruled : snapshot.revision.rules ≠ [] ∨ rule.action.isSource = true := by
        by_contra hneither
        rw [not_or, not_not, Bool.not_eq_true] at hneither
        exact supported (snapshot.revision.rules_eq_nil.mp hneither.1) rule hrule hneither.2 fires
      obtain ⟨action, haction, grants⟩ :=
        deriveRule_grants (policy.registered.checked rule hrule) fires ruled
      rw [hmem] at haction
      cases haction
      exact ⟨action, List.mem_filterMap.mpr ⟨some action, hresult, rfl⟩, grants⟩
  granted := by
    intro action haction
    obtain ⟨rule, hrule, -, grants⟩ := derived_from each haction
    exact ⟨rule, hrule, grants⟩
  kinds := List.pairwise_map.mpr ((derived_pairwise each).imp And.right)
  accepted := by
    intro evidence hevidence
    unfold SelectorInput.exactAuthority
    rw [if_neg (by simp [derived]), if_neg, if_neg]
    · simpa using hevidence
    · simp only [derived, List.any_eq_true, decide_eq_true_eq, not_exists, not_and, not_not]
      intro action haction
      obtain ⟨rule, -, fires, grants⟩ := derived_from each haction
      simpa [grants.cost, Budget.affords] using
        ⟨⟨fires.2.2.2.1.1, fires.2.2.2.1.2.1⟩, fires.2.2.2.1.2.2.1⟩

end

/-- `derive` returns exactly the permitted actions, in a set that the selector
input accepts, if and only if no human or review rule fires in preparation. -/
theorem derive_exact_iff (digest : WorkflowSnapshot sources → Digest)
    (policy : ControlledActionPolicy) (snapshot : WorkflowSnapshot sources) :
    (∃ set, derive digest policy snapshot = .ok set ∧ Exact digest policy snapshot set) ↔
      Supported policy snapshot := by
  constructor
  · rintro ⟨set, hset, -⟩ source rule hrule control fires
    obtain ⟨results, hresults, -⟩ := bind_ok.mp hset
    obtain ⟨result, -, hresult⟩ := forall₂_left (mapM_ok.mp hresults) hrule
    rw [deriveRule_refused (policy.registered.checked rule hrule) fires
      (snapshot.revision.rules_eq_nil.mpr source) control] at hresult
    cases hresult
  · intro supported
    obtain ⟨results, hresults, -⟩ := mapM_total (f := deriveRule policy snapshot)
      (g := fun _ => ()) (k := fun _ => ()) fun rule hrule => by
        obtain ⟨result, hresult⟩ := deriveRule_ok supported hrule
        exact ⟨result, hresult, rfl⟩
    have each := mapM_ok.mp hresults
    exact ⟨derived digest policy snapshot results,
      bind_ok.mpr ⟨results, hresults, derived_unambiguous each⟩, derived_exact each supported⟩

def preparationSources : SourceRevision fun _ => MemoryJobStore.sampleDigest where
  reference := MemoryJobStore.sampleRevision 0
  documents := MemoryJobStore.sampleSubmission.documents
  minDocuments := MemoryJobStore.sampleSubmission.minDocuments
  ordered := by decide
  pinned := rfl
  sameCase := MemoryJobStore.sampleSubmission.sameCase
  distinctDocuments := MemoryJobStore.sampleSubmission.distinctDocuments
  childVersion := by simp

def preparationSnapshot : WorkflowSnapshot fun _ => MemoryJobStore.sampleDigest where
  stateVersion := 1
  run := { runId := ⟨2⟩, revision := MemoryJobStore.sampleRevision 0 }
  revision := .source preparationSources
  state := .criteriaPending
  budget := ⟨1, 1, 1, none⟩
  positive := numbered_from_one
  budgeted := rfl
  prepared := fun _ => ⟨rfl, by simp⟩
  sameRevision := rfl
  uniquePrerequisites := List.nodup_nil
  uniqueBlockers := by exact List.nodup_nil

def reviewingRule : ActionPolicyRule where
  actionId := "request-criteria-review"
  action := .human
  states := [.criteriaPending]
  prerequisites := []

def reviewingPolicy : ControlledActionPolicy where
  proposerKind := .system
  policyVersion := ⟨"review-preparation-system", by decide⟩
  rules := [reviewingRule]
  registry := by rfl

/-- The constructor accepts the rule, and `derive` raises instead of withholding it. -/
theorem derive_raises_in_preparation :
    derive (fun _ => MemoryJobStore.sampleDigest) reviewingPolicy preparationSnapshot =
      .error (.valueError "Only preparation source actions may omit rules") := by
  have fires : Fires reviewingPolicy preparationSnapshot reviewingRule :=
    ⟨by decide, by decide, nofun, by decide, .inl rfl⟩
  have checked := reviewingPolicy.registered.checked reviewingRule List.mem_cons_self
  change ([reviewingRule].mapM _ >>= _) = _
  rw [List.mapM_cons, deriveRule_refused checked fires rfl rfl]
  rfl

end AppraisalReview.ActionPolicy
