import AppraisalReview.Raising
import AppraisalReview.ServiceGuards
import AppraisalReview.WorkflowContracts

set_option autoImplicit false

/-!
# Allowed-action derivation

A registry of rules and the exact snapshot of a run give the actions a selector
may choose from. `sources` digests the documents of a preparation revision.
-/
namespace AppraisalReview
open RunLedger (Budget)

@[ext]
structure SourceRevision (sources : List DocumentReference → Digest) where
  reference : RevisionReference
  parent : Option RevisionReference := none
  documents : List DocumentReference
  minDocuments : 2 ≤ documents.length
  ordered : documents = sortedDocuments documents
  pinned : reference.materialDigest = sources documents
  sameCase : ∀ document ∈ documents, document.caseId = reference.caseId
  distinctDocuments : (documents.map DocumentReference.documentId).Nodup
  childVersion : ∀ p ∈ parent, p.caseId = reference.caseId ∧
    p.revisionId ≠ reference.revisionId ∧ p.materialDigest ≠ reference.materialDigest

instance {sources : List DocumentReference → Digest} : DecidableEq (SourceRevision sources) := fun _ _ =>
  decidable_of_iff _ SourceRevision.ext_iff.symm

inductive WorkflowRevision (sources : List DocumentReference → Digest) where
  | material (revision : MaterialRevision)
  | source (revision : SourceRevision sources)
deriving DecidableEq

namespace WorkflowRevision
variable {sources : List DocumentReference → Digest}

def reference : WorkflowRevision sources → RevisionReference
  | .material revision => revision.reference
  | .source revision => revision.reference

def documents : WorkflowRevision sources → List DocumentReference
  | .material revision => revision.documents
  | .source revision => revision.documents

def rules : WorkflowRevision sources → List RuleReference
  | .material revision => revision.rules
  | .source _ => []

def isSource : WorkflowRevision sources → Bool
  | .material _ => false
  | .source _ => true

theorem minDocuments (revision : WorkflowRevision sources) : 2 ≤ revision.documents.length := by
  cases revision with
  | material revision => exact revision.minDocuments
  | source revision => exact revision.minDocuments

theorem sameCase (revision : WorkflowRevision sources) :
    ∀ document ∈ revision.documents, document.caseId = revision.reference.caseId := by
  cases revision with
  | material revision => exact revision.sameCase
  | source revision => exact revision.sameCase

theorem distinctDocuments (revision : WorkflowRevision sources) :
    (revision.documents.map DocumentReference.documentId).Nodup := by
  cases revision with
  | material revision => exact revision.distinctDocuments
  | source revision => exact revision.distinctDocuments

theorem rules_eq_nil (revision : WorkflowRevision sources) :
    revision.rules = [] ↔ revision.isSource = true := by
  cases revision with
  | material revision => simpa [rules, isSource] using revision.actualRules
  | source => exact ⟨fun _ => rfl, fun _ => rfl⟩

end WorkflowRevision

def WorkflowState.preparation : WorkflowState → Bool
  | .criteriaPending | .extractionRetryable | .referenceAvailable => true
  | _ => false

def ActionPrerequisite.preparation : ActionPrerequisite → Bool
  | .criteriaDocument | .formsDocument | .authorizedSource | .extractionRetryAvailable
  | .referenceAvailable => true
  | _ => false

/-- Exact trusted workflow input; selectors may inspect but never author it. -/
@[ext]
structure WorkflowSnapshot (sources : List DocumentReference → Digest) where
  stateVersion : ℕ
  run : RunReference
  revision : WorkflowRevision sources
  state : WorkflowState
  satisfiedPrerequisites : List ActionPrerequisite := []
  unresolvedBlockers : List WorkflowBlocker := []
  budget : Budget
  positive : 1 ≤ stateVersion
  budgeted : budget.valid = true
  prepared : revision.isSource = true → state.preparation = true ∧
    ∀ prerequisite ∈ satisfiedPrerequisites, prerequisite.preparation = true
  sameRevision : run.revision = revision.reference
  uniquePrerequisites : satisfiedPrerequisites.Nodup
  uniqueBlockers : (unresolvedBlockers.map WorkflowBlocker.blockerId).Nodup

instance {sources : List DocumentReference → Digest} : DecidableEq (WorkflowSnapshot sources) := fun _ _ =>
  decidable_of_iff _ WorkflowSnapshot.ext_iff.symm

def ActionKind.isSource : ActionKind → Bool
  | .extract | .reference => true
  | _ => false

inductive ProposerKind where
  | system | model
deriving DecidableEq

structure ActionCost where
  steps : Int := 1
  modelCalls : Int := 0
  retries : Int := 0
deriving DecidableEq

def ActionCost.valid (cost : ActionCost) : Bool :=
  1 ≤ cost.steps && 0 ≤ cost.modelCalls && 0 ≤ cost.retries

structure AllowedAction where
  actionId : OpaqueID
  action : ActionKind
  permittedStates : List WorkflowState
  permittedDocumentPurposes : List DocumentPurpose := []
  revision : RevisionReference
  rules : List RuleReference := []
  proposerKinds : List ProposerKind
  prerequisites : List ActionPrerequisite := []
  cost : ActionCost := {}
deriving DecidableEq

/-- `bounded_authority` -/
def AllowedAction.boundedAuthority (action : AllowedAction) : Except Fault AllowedAction :=
  if action.permittedStates = [] ∨ action.proposerKinds.length ≠ 1 ∨ ¬ action.cost.valid then
    .error (.valueError "Input should be valid")
  else if action.rules = [] ∧ ¬ action.action.isSource then
    .error (.valueError "Only preparation source actions may omit rules")
  else if ¬ action.permittedStates.Nodup then
    .error (.valueError "Permitted states must be unique")
  else if ¬ action.permittedDocumentPurposes.Nodup then
    .error (.valueError "Permitted document purposes must be unique")
  else if ¬ action.proposerKinds.Nodup then
    .error (.valueError "Permitted proposer kinds must be unique")
  else if ¬ action.prerequisites.Nodup then
    .error (.valueError "Action prerequisites must be unique")
  else if action.action.isSource ≠ !action.permittedDocumentPurposes.isEmpty then
    .error (.valueError "Only source actions declare permitted document purposes")
  else if action.action = .reference ∧
      ¬ action.permittedDocumentPurposes.all (fun p => p = .reference || p = .brief) then
    .error (.valueError "Reference inspection requires reference or brief material")
  else if action.action = .extract ∧ .template ∈ action.permittedDocumentPurposes then
    .error (.valueError "Templates are not extraction evidence")
  else if (.model ∈ action.proposerKinds : Bool) ≠ (0 < action.cost.modelCalls : Bool) then
    .error (.valueError "Action cost must account exactly for model selection")
  else .ok action

structure AllowedActionSet where
  policyVersion : OpaqueID
  snapshotDigest : Digest
  revision : RevisionReference
  documents : List DocumentReference
  rules : List RuleReference := []
  actions : List AllowedAction := []
deriving DecidableEq

/-- `unambiguous_registry` -/
def AllowedActionSet.unambiguousRegistry (set : AllowedActionSet) : Except Fault AllowedActionSet :=
  if set.documents.length < 2 then .error (.valueError "Input should be valid")
  else if ¬ (set.actions.map AllowedAction.actionId).Nodup then
    .error (.valueError "Allowed action IDs must be unique")
  else if ¬ (set.actions.map AllowedAction.action).Nodup then
    .error (.valueError "An allowed-action registry cannot contain ambiguous action kinds")
  else if set.documents.any (·.caseId ≠ set.revision.caseId) ∨
      ¬ (set.documents.map DocumentReference.documentId).Nodup then
    .error (.valueError "Allowed-action documents must uniquely bind the revision case")
  else if set.actions.any fun action => action.revision ≠ set.revision ∨
      action.rules ≠ set.rules ∨ ¬ action.permittedDocumentPurposes.all
        (· ∈ set.documents.map DocumentReference.purpose) then
    .error (.valueError "Every allowed action must bind the current material sources and rules")
  else .ok set

section
variable {sources : List DocumentReference → Digest}

structure SelectorInput (sources : List DocumentReference → Digest) where
  snapshot : WorkflowSnapshot sources
  allowedActions : AllowedActionSet
  evidence : List SourceCitation := []
  budget : Budget

def Budget.affords (budget : Budget) (cost : ActionCost) : Bool :=
  cost.steps ≤ budget.stepsRemaining && cost.modelCalls ≤ budget.modelCallsRemaining &&
    cost.retries ≤ budget.retriesRemaining

def SourceCitation.ofDocuments (documents : List DocumentReference) (citation : SourceCitation) :
    Bool :=
  documents.any fun document => document.documentId.text = citation.documentId &&
    document.version.text = citation.version && document.contentHash.text = citation.contentHash

/-- `exact_authority` -/
def SelectorInput.exactAuthority (digest : WorkflowSnapshot sources → Digest)
    (input : SelectorInput sources) : Except Fault (SelectorInput sources) :=
  let allowed := input.allowedActions
  let revision := input.snapshot.revision
  if input.budget ≠ input.snapshot.budget ∨ allowed.snapshotDigest ≠ digest input.snapshot ∨
      allowed.revision ≠ revision.reference ∨ allowed.documents ≠ revision.documents ∨
      allowed.rules ≠ revision.rules then
    .error (.valueError "Selector input must bind one exact trusted snapshot")
  else if allowed.actions.any fun action => ¬ Budget.affords input.budget action.cost then
    .error (.valueError "Selector input cannot advertise an unaffordable action")
  else if input.evidence.any fun citation => ¬ citation.ofDocuments revision.documents then
    .error (.valueError "Selector evidence must resolve in the current revision")
  else .ok input

end

namespace ActionPolicy

/-- Static trusted policy registration, never selector- or request-authored. -/
structure ActionPolicyRule where
  actionId : String
  action : ActionKind
  states : List WorkflowState
  prerequisites : List ActionPrerequisite
  documentPurposes : List DocumentPurpose := []
  retryCost : Int := 0
  requiresBlockers : Bool := false

def ActionPolicyRule.check (rule : ActionPolicyRule) : Except Fault Unit := do
  let _ ← OpaqueID.parse rule.actionId
  if rule.states = [] ∨ ¬ rule.states.Nodup then
    .error (.valueError "Action policy states must be non-empty and unique")
  if ¬ rule.prerequisites.Nodup then
    .error (.valueError "Action policy prerequisites must be unique")
  if ¬ rule.documentPurposes.Nodup then
    .error (.valueError "Action policy document purposes must be unique")
  if rule.retryCost < 0 then .error (.valueError "Action policy retry cost cannot be negative")
  if rule.action.isSource ≠ !rule.documentPurposes.isEmpty then
    .error (.valueError "Only source action policy rules declare document purposes")
  if rule.action = .reference ∧
      ¬ rule.documentPurposes.all (fun p => p = .reference || p = .brief) then
    .error (.valueError "Reference policy rules require reference or brief material")
  if .template ∈ rule.documentPurposes then
    .error (.valueError "Templates cannot be controlled extraction sources")
  .ok ()

def registerStates (action : ActionKind) : List WorkflowState →
    List (WorkflowState × ActionKind) → Except Fault (List (WorkflowState × ActionKind))
  | [], registrations => .ok registrations
  | state :: rest, registrations =>
    if (state, action) ∈ registrations then
      .error (.valueError "Action policy contains an ambiguous state/action rule")
    else registerStates action rest ((state, action) :: registrations)

def registerRules : List ActionPolicyRule → List (WorkflowState × ActionKind) → Except Fault Unit
  | [], _ => .ok ()
  | rule :: rest, registrations => do
    rule.check
    let registrations ← registerStates rule.action rule.states registrations
    registerRules rest registrations

/-- `_validate_registry` -/
def validateRegistry (rules : List ActionPolicyRule) : Except Fault Unit :=
  if ¬ (rules.map ActionPolicyRule.actionId).Nodup then
    .error (.valueError "Action policy IDs must be unique")
  else registerRules rules []

def ProposerKind.text : ProposerKind → String
  | .system => "system"
  | .model => "model"

structure ControlledActionPolicy where
  proposerKind : ProposerKind
  policyVersion : OpaqueID
  rules : List ActionPolicyRule
  registry : validateRegistry rules = .ok ()

def ControlledActionPolicy.build (proposerKind : ProposerKind) (policyVersion : String)
    (rules : List ActionPolicyRule) : Except Fault ControlledActionPolicy := do
  let version ← OpaqueID.parse (policyVersion ++ "-" ++ ProposerKind.text proposerKind)
  match h : validateRegistry rules with
  | .error fault => .error fault
  | .ok () => .ok {
      proposerKind := proposerKind, policyVersion := version, rules := rules, registry := h }

section
variable {sources : List DocumentReference → Digest}

def ControlledActionPolicy.modelCost (policy : ControlledActionPolicy) : Int :=
  if policy.proposerKind = .model then 1 else 0

def permittedPurposes (snapshot : WorkflowSnapshot sources) (rule : ActionPolicyRule) :
    List DocumentPurpose :=
  rule.documentPurposes.filter (· ∈ snapshot.revision.documents.map DocumentReference.purpose)

/-- `_derive_rule` -/
def deriveRule (policy : ControlledActionPolicy) (snapshot : WorkflowSnapshot sources)
    (rule : ActionPolicyRule) : Except Fault (Option AllowedAction) :=
  if snapshot.state ∉ rule.states then .ok none
  else if ¬ rule.prerequisites.all (· ∈ snapshot.satisfiedPrerequisites) then .ok none
  else if rule.requiresBlockers ∧ snapshot.unresolvedBlockers = [] then .ok none
  else if snapshot.budget.stepsRemaining < 1 ∨
      snapshot.budget.modelCallsRemaining < policy.modelCost ∨
      snapshot.budget.retriesRemaining < rule.retryCost ∨
      snapshot.budget.timeRemainingMs = some 0 then .ok none
  else if rule.documentPurposes ≠ [] ∧ permittedPurposes snapshot rule = [] then .ok none
  else do
    let actionId ← OpaqueID.parse rule.actionId
    let action ← AllowedAction.boundedAuthority {
      actionId := actionId
      action := rule.action
      permittedStates := rule.states
      permittedDocumentPurposes := permittedPurposes snapshot rule
      revision := snapshot.revision.reference
      rules := snapshot.revision.rules
      proposerKinds := [policy.proposerKind]
      prerequisites := rule.prerequisites
      cost := { steps := 1, modelCalls := policy.modelCost, retries := rule.retryCost } }
    .ok (some action)

/-- Return the only actions trusted policy permits for this exact snapshot. -/
def derive (digest : WorkflowSnapshot sources → Digest) (policy : ControlledActionPolicy)
    (snapshot : WorkflowSnapshot sources) : Except Fault AllowedActionSet := do
  let actions ← policy.rules.mapM (deriveRule policy snapshot)
  AllowedActionSet.unambiguousRegistry {
    policyVersion := policy.policyVersion
    snapshotDigest := digest snapshot
    revision := snapshot.revision.reference
    documents := snapshot.revision.documents
    rules := snapshot.revision.rules
    actions := actions.filterMap id }

end
end ActionPolicy
end AppraisalReview
