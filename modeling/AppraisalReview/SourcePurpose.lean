import AppraisalReview.FactorModels

set_option autoImplicit false

/-!
# Permitted use of a source

Source identity is necessary, but its permitted use must also be established.
-/
namespace AppraisalReview

inductive Purpose where
  | case | rule | procedure
deriving DecidableEq

structure SourcePurposes where
  registry : SourceRegistry
  forms : SourceDocument
  criteria : SourceDocument

def keepWhere {α : Type} (condition : α → Except Escape Bool) : List α → Except Escape (List α)
  | [] => .ok []
  | x :: rest => do
    let keep ← condition x
    let kept ← keepWhere condition rest
    return if keep then x :: kept else kept

def selectSource (rt : Runtime) (registry : SourceRegistry) (role : DocumentRole)
    (supplied : Option SourceDocument) : Except Escape SourceDocument := do
  let ofRole := registry.documents.filter fun document => document.role = role
  let choices ← match supplied with
    | none => pure ofRole
    | some given => keepWhere (fun document => document.sameIdentityAndContent rt given) ofRole
  match choices with
  | [choice] => return choice
  | _ => throw (.valueError "source_purpose: one current source per selected role required")

namespace SourcePurposes

def selected (rt : Runtime) (registry : SourceRegistry) (forms criteria : Option SourceDocument) :
    Except Escape SourcePurposes := do
  let forms ← selectSource rt registry .forms forms
  let criteria ← selectSource rt registry .criteria criteria
  return ⟨registry, forms, criteria⟩

def allowed (purposes : SourcePurposes) : Purpose → List SourceDocument
  | .case => [purposes.forms]
  | .rule => [purposes.criteria]
  | .procedure => purposes.forms :: purposes.criteria ::
      purposes.registry.documents.filter fun document => document.role = .reference

def allows (purposes : SourcePurposes) (refs : List SourceCitation) (purpose : Purpose) : Bool :=
  refs ≠ [] && refs.all fun ref =>
    purposes.registry.resolves ref && (purposes.allowed purpose).any fun document =>
      ref.cites document

abbrev Violation := String × List SourceCitation

def check (purposes : SourcePurposes) (id : String) (refs : List SourceCitation)
    (purpose : Purpose) : List Violation :=
  if purposes.allows refs purpose then [] else [(id, refs)]

def fromCriteria (purposes : SourcePurposes) (entry : ScopedRules) : Bool :=
  entry.rules.sourceDocument.documentId = purposes.criteria.documentId &&
    entry.rules.sourceDocument.contentHash = purposes.criteria.contentHash &&
    entry.sourceVersion = purposes.criteria.version

def violations (purposes : SourcePurposes) (policy : ReviewPolicy) (facts : CaseFacts) :
    List Violation :=
  (policy.inventory.contexts.flatMap fun entry =>
    purposes.check entry.context.key entry.evidence .case) ++
  (policy.inventory.slots.flatMap fun slot =>
    purposes.check ("observed/" ++ slot.id) slot.evidence .case) ++
  (facts.observed.flatMap fun observed =>
    purposes.check ("observed/" ++ observed.slotId) observed.evidence .case) ++
  (facts.pairs.flatMap fun pair =>
    let id := pair.context.key ++ "/factor/" ++ pair.pair.factorId
    purposes.check id pair.targetSources .case ++ purposes.check id pair.comparableSources .case) ++
  (policy.inventory.emptyColumns.flatMap fun empty =>
    purposes.check ("empty/" ++ empty.id) empty.evidence .case) ++
  (policy.inventory.checks.flatMap fun arithmetic =>
    purposes.check ("arithmetic/" ++ arithmetic.id) arithmetic.evidence .procedure) ++
  (policy.ruleSets.flatMap fun entry =>
    purposes.check entry.context.key entry.evidence .rule ++
      if purposes.fromCriteria entry then [] else [(entry.context.key, entry.evidence)])

end SourcePurposes

/-- The violations a review reports; an unusable selection is one of its own. -/
def sourceViolations (rt : Runtime) (policy : ReviewPolicy) (facts : CaseFacts)
    (registry : SourceRegistry) (forms criteria : Option SourceDocument) :
    Except Escape (List SourcePurposes.Violation) :=
  match SourcePurposes.selected rt registry forms criteria with
  | .ok purposes => .ok (purposes.violations policy facts)
  | .error escape => if escape.isValueError then .ok [("sources", [])] else .error escape

end AppraisalReview
