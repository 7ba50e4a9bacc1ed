import AppraisalReview.Confidence

set_option autoImplicit false

/-!
# The canonical text of the review material

What `content_digest` hashes: the dump of the whole material with sorted keys.
The fields with one permitted value are written out; `isoformat` writes a day.
-/
namespace AppraisalReview
open CanonicalJson

/-- The dump of a dictionary with text keys, which `sort_keys` orders. -/
def Dict.json {ν : Type} (json : ν → Json) (dict : Dict String ν) : Json :=
  .object ((dict.items.insertionSort fun a b => a.1 ≤ b.1).map fun entry =>
    (entry.1, json entry.2))

def optionText (text : Option String) : Json := optionJson .string text

def floatJson (x : Binary64) : Json := .number x.repr

def citationsJson (refs : List SourceCitation) : Json := .array (refs.map SourceCitation.json)

def RegionKind.label : RegionKind → String
  | .text => "text"
  | .cell => "cell"
  | .selection => "selection"
  | .image => "image"

def Marking.text : Marking → String
  | .checked => "checked"
  | .unchecked => "unchecked"
  | .ambiguous => "ambiguous"

def DocumentRole.text : DocumentRole → String
  | .criteria => "criteria"
  | .forms => "forms"
  | .reference => "reference"
  | .brief => "brief"

def SourceRegion.json (region : SourceRegion) : Json := .object [
  ("bbox", region.bbox.json),
  ("column", optionJson (fun n => .number (intText n)) region.column),
  ("id", .string region.id),
  ("kind", .string region.kind.label),
  ("row", optionJson (fun n => .number (intText n)) region.row),
  ("selection", optionJson (fun m => .string m.text) region.selection),
  ("table_id", optionText region.tableId),
  ("text", .string region.text)]

def SourcePage.json (page : SourcePage) : Json := .object [
  ("crop_box", page.cropBox.json),
  ("has_text", .bool page.hasText),
  ("height", floatJson page.height),
  ("number", .number (intText page.number)),
  ("regions", .array (page.regions.map SourceRegion.json)),
  ("rotation", .number (intText page.rotation)),
  ("width", floatJson page.width)]

def SourceDocument.json (document : SourceDocument) : Json := .object [
  ("content_hash", .string document.contentHash),
  ("coordinate_system", .string "pdf_bottom_left"),
  ("document_date", optionText document.documentDate),
  ("document_id", .string document.documentId),
  ("page_space", .string "unrotated_crop_box"),
  ("pages", .array (document.pages.map SourcePage.json)),
  ("role", .string document.role.text),
  ("uri", .string document.uri),
  ("version", .string document.version)]

def SourceRegistry.json (registry : SourceRegistry) : Json :=
  .object [("documents", .array (registry.documents.map SourceDocument.json))]

def SlotValue.text : SlotValue → String
  | .targetGrade => "target_grade"
  | .comparableGrade => "comparable_grade"
  | .adjustmentPercent => "adjustment_percent"
  | .subtotal => "subtotal"
  | .total => "total"

def ObservedUnit.text : ObservedUnit → String
  | .percentPoints => "percent_points"
  | .ratio => "ratio"
  | .grade => "grade"

def ReliabilityMethod.text : ReliabilityMethod → String
  | .nativeNumeric => "native_numeric"
  | .reviewerConfirmed => "reviewer_confirmed"
  | .modelProposed => "model_proposed"

/-- A decimal is dumped as the text that `str` writes. -/
def ObservedContent.json : ObservedContent → Json
  | .text value => .string value
  | .number value => .string value.text

def ObservedValue.json (observed : ObservedValue) : Json := .object [
  ("evidence", citationsJson observed.evidence),
  ("raw_text", .string observed.rawText),
  ("slot_id", .string observed.slotId),
  ("state", .string observed.state.text),
  ("unit", optionJson (fun u => .string u.text) observed.unit),
  ("value", optionJson ObservedContent.json observed.value)]

def ReviewSlot.json (slot : ReviewSlot) : Json := .object [
  ("context", slot.context.json),
  ("derivable_blank", .bool slot.derivableBlank),
  ("evidence", citationsJson slot.evidence),
  ("factor_id", optionText slot.factorId),
  ("id", .string slot.id),
  ("value", .string slot.value.text)]

def InventoryContext.json (entry : InventoryContext) : Json := .object [
  ("context", entry.context.json),
  ("evidence", citationsJson entry.evidence),
  ("factor_ids", stringsJson entry.factorIds)]

def EmptyColumn.json (column : EmptyColumn) : Json := .object [
  ("evidence", citationsJson column.evidence),
  ("id", .string column.id)]

def ArithmeticCheck.json (check : ArithmeticCheck) : Json := .object [
  ("evidence", citationsJson check.evidence),
  ("id", .string check.id),
  ("inputs", stringsJson check.inputs),
  ("kind", .string check.kind.text),
  ("quantum", .string check.quantum.text),
  ("target", .string check.target),
  ("tolerance", .string check.tolerance.text)]

def ReviewInventory.json (inventory : ReviewInventory) : Json := .object [
  ("checks", .array (inventory.checks.map ArithmeticCheck.json)),
  ("contexts", .array (inventory.contexts.map InventoryContext.json)),
  ("empty_columns", .array (inventory.emptyColumns.map EmptyColumn.json)),
  ("inspected_pages",
    inventory.inspectedPages.json fun pages => .array (pages.map fun n => .number (intText n))),
  ("inspected_tables", inventory.inspectedTables.json stringsJson),
  ("slots", .array (inventory.slots.map ReviewSlot.json)),
  ("unresolved", stringsJson inventory.unresolved),
  ("unsupported", stringsJson inventory.unsupported)]

def RuleKind.text : RuleKind → String
  | .numericInterval => "numeric_interval"
  | .distanceInterval => "distance_interval"
  | .category => "category"
  | .presenceDistance => "presence_distance"

def RuleSetStatus.text : RuleSetStatus → String
  | .candidate => "candidate"
  | .approved => "approved"
  | .rejected => "rejected"

def IntervalBand.json (band : IntervalBand) : Json := .object [
  ("grade", .string band.grade.text),
  ("maximum", optionJson floatJson band.maximum),
  ("maximum_inclusive", .bool band.maximumInclusive),
  ("minimum", optionJson floatJson band.minimum),
  ("minimum_inclusive", .bool band.minimumInclusive)]

def CategoryBand.json (band : CategoryBand) : Json := .object [
  ("grade", .string band.grade.text),
  ("values", stringsJson band.values)]

def CorrectionMatrix.json (matrix : CorrectionMatrix) : Json := .object [
  ("column_axis", .string "comparable_grade"),
  ("row_axis", .string "target_grade"),
  ("values", Dict.json (Dict.json floatJson) matrix)]

def FactorRule.json (rule : FactorRule) : Json := .object [
  ("categories", .array (rule.categories.map CategoryBand.json)),
  ("correction_matrix", CorrectionMatrix.json rule.correctionMatrix),
  ("critical", .bool rule.critical),
  ("factor_id", .string rule.factorId),
  ("id", .string rule.id),
  ("intervals", .array (rule.intervals.map IntervalBand.json)),
  ("kind", .string rule.kind.text),
  ("unit", optionText rule.unit)]

def RuleSource.json (source : RuleSource) : Json := .object [
  ("content_hash", .string source.contentHash),
  ("document_id", .string source.documentId),
  ("pages", .array (source.pages.map fun n => .number (intText n)))]

section
variable (isoformat : Date → String)

def RuleApplicability.json (applicability : RuleApplicability) : Json := .object [
  ("effective_from", optionJson (fun day => .string (isoformat day)) applicability.effectiveFrom),
  ("effective_to", optionJson (fun day => .string (isoformat day)) applicability.effectiveTo),
  ("jurisdiction", .string applicability.jurisdiction),
  ("land_use_category", .string applicability.landUseCategory)]

def FactorRuleSet.json (rules : FactorRuleSet) : Json := .object [
  ("applicability", rules.applicability.json isoformat),
  ("rule_set_id", .string rules.ruleSetId),
  ("rules", .array (rules.rules.map FactorRule.json)),
  ("source_document", rules.sourceDocument.json),
  ("status", .string rules.status.text),
  ("version", .string rules.version)]

def ScopedRules.json (entry : ScopedRules) : Json := .object [
  ("context", entry.context.json),
  ("evidence", citationsJson entry.evidence),
  ("rules", entry.rules.json isoformat),
  ("source_version", .string entry.sourceVersion),
  ("zone", .string entry.zone)]

def CaseIdentity.json (identity : CaseIdentity) : Json := .object [
  ("case_id", .string identity.caseId),
  ("district", .string identity.district),
  ("effective_date", .string (isoformat identity.effectiveDate)),
  ("land_use_category", .string identity.landUseCategory),
  ("version", .string identity.version),
  ("zone", .string identity.zone)]

def ReviewPolicy.json (policy : ReviewPolicy) : Json := .object [
  ("identity", policy.identity.json isoformat),
  ("inventory", policy.inventory.json),
  ("registry", policy.registry.json),
  ("rule_sets", .array (policy.ruleSets.map (ScopedRules.json isoformat))),
  ("schema_version", .string "2.0")]

def FactConfirmation.json (confirmation : FactConfirmation) : Json := .object [
  ("input_digest", .string confirmation.inputDigest),
  ("protocol", .string "local-review-v1"),
  ("reviewer", .string confirmation.reviewer)]

def Reliability.json (reliability : Reliability) : Json := .object [
  ("confidence_kind", .string reliability.confidenceKind.text),
  ("confirmation", optionJson FactConfirmation.json reliability.confirmation),
  ("method", .string reliability.method.text),
  ("model_confidence", optionJson floatJson reliability.modelConfidence),
  ("producer", optionText reliability.producer),
  ("provenance", .string reliability.provenance.text),
  ("selection", .string reliability.selection.text),
  ("unresolved", stringsJson reliability.unresolved)]

def FactorPair.json (pair : FactorPair) : Json := .object [
  ("comparable", pair.comparable.json),
  ("factor_id", .string pair.factorId),
  ("target", pair.target.json)]

def EvidencedPair.json (pair : EvidencedPair) : Json := .object [
  ("comparable_reliability", pair.comparableReliability.json),
  ("comparable_sources", citationsJson pair.comparableSources),
  ("context", pair.context.json),
  ("pair", pair.pair.json),
  ("target_reliability", pair.targetReliability.json),
  ("target_sources", citationsJson pair.targetSources)]

def CaseFacts.json (facts : CaseFacts) : Json := .object [
  ("identity", facts.identity.json isoformat),
  ("observed", .array (facts.observed.map ObservedValue.json)),
  ("pairs", .array (facts.pairs.map EvidencedPair.json)),
  ("unresolved", stringsJson facts.unresolved)]

def ReviewMaterial.json (material : ReviewMaterial) : Json := .object [
  ("facts", material.facts.json isoformat),
  ("policy", material.policy.json isoformat)]

def ReviewMaterial.canonical (material : ReviewMaterial) : String :=
  dumps (material.json isoformat)

/-- `content_digest` -/
def contentDigest (rt : Runtime) (material : ReviewMaterial) : Digest :=
  rt.sha256 (material.canonical isoformat)

end
end AppraisalReview
