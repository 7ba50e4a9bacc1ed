import AppraisalReview.CaseReview
import Mathlib.Data.List.DropRight

set_option autoImplicit false

/-!
# The tool-based review controller

`review` coordinates a parser, a rule provider, a fact extractor, an authority
and an optional PDF writer. The tools are arbitrary: each call gives a value or
raises. A run gives the requests that the writer received and what came back.
-/
namespace AppraisalReview
open TopologicalSort

theorem strip_idem (cs : List Char) : strip (strip cs) = strip cs := by
  change List.rdropWhile isSpace ((strip cs).dropWhile isSpace) = strip cs
  have hhead : (strip cs).dropWhile isSpace = strip cs := by
    change (List.rdropWhile isSpace (cs.dropWhile isSpace)).dropWhile isSpace =
      List.rdropWhile isSpace (cs.dropWhile isSpace)
    rw [List.dropWhile_eq_self_iff]
    intro hlength
    have hget := (List.rdropWhile_prefix isSpace (cs.dropWhile isSpace)).getElem hlength
    rw [hget]
    have hnonempty : 0 < (cs.dropWhile isSpace).length :=
      lt_of_lt_of_le hlength (List.rdropWhile_prefix isSpace _).length_le
    exact List.dropWhile_get_zero_not isSpace cs hnonempty
  rw [hhead]
  exact List.rdropWhile_idempotent isSpace (cs.dropWhile isSpace)

@[ext]
structure Identifier where
  text : String
  trimmed : strip text.toList = text.toList
  nonempty : text ≠ ""

instance : DecidableEq Identifier := fun _ _ =>
  decidable_of_iff _ Identifier.ext_iff.symm

def trim (text : String) : String := String.ofList (strip text.toList)

def Identifier.parse (text : String) : Option Identifier :=
  if h : trim text ≠ "" then
    some ⟨trim text, by rw [trim, String.toList_ofList, strip_idem], h⟩
  else none

inductive PDFErrorCode where
  | unsupportedUri | sourceDestinationConflict | read | placement | font | write | invalidResult
deriving DecidableEq

inductive PDFValue where
  | targetGrade | comparableGrade | adjustmentPercent
deriving DecidableEq

inductive PDFReading where
  | factor (factorId : String) (value : PDFValue)
  | totalAdjustmentPercent
deriving DecidableEq

structure PDFValueRef where
  context : ComparisonContext
  reading : PDFReading
deriving DecidableEq

structure PDFField where
  fieldId : Identifier
  valueRef : Option PDFValueRef := none
  placeholderToken : Option String := none
  oneValueSource : valueRef = none ∨ placeholderToken = none

structure PDFFieldMap where
  fields : List PDFField
  uniqueIds : (fields.map PDFField.fieldId).Nodup

namespace PDFFieldMap

def contexts (fieldMap : PDFFieldMap) : List ComparisonContext :=
  fieldMap.fields.filterMap fun field => field.valueRef.map PDFValueRef.context

def fieldIds (fieldMap : PDFFieldMap) : List Identifier := fieldMap.fields.map PDFField.fieldId

end PDFFieldMap

structure PDFWriteRequest where
  sourceUri : Identifier
  destinationUri : Identifier
  protectedSourceUris : List Identifier := []
  result : FactorReviewResult
  additionalResults : List FactorReviewResult := []
  fieldMap : PDFFieldMap

/-- The error that a validator wraps; `document_identity` raises one of its own. -/
def Escape.placementCode : Escape → PDFErrorCode
  | .unsupportedDocumentURI => .unsupportedUri
  | _ => .placement

def FactorEvaluationResult.resolves (item : FactorEvaluationResult) : PDFValue → Bool
  | .targetGrade => item.targetGrade.isSome
  | .comparableGrade => item.comparableGrade.isSome
  | .adjustmentPercent => item.adjustmentPercent.isSome

namespace PDFWriteRequest

/-- All verified comparisons; the legacy single-context request has one. -/
def comparisons (request : PDFWriteRequest) : List FactorReviewResult :=
  request.result :: request.additionalResults

/-- Resolve one field reference to exactly one context-bound comparison. -/
def boundComparison (request : PDFWriteRequest) (ref : PDFValueRef) :
    Except PDFErrorCode FactorReviewResult :=
  if request.additionalResults.isEmpty ∧ request.result.context = none then .ok request.result
  else match request.comparisons.filter fun comparison => comparison.context = some ref.context with
    | [comparison] => .ok comparison
    | _ => .error .placement

def resolveField (request : PDFWriteRequest) (field : PDFField) : Except PDFErrorCode Unit :=
  match field.valueRef with
  | none => .ok ()
  | some ref => do
    let target ← request.boundComparison ref
    match ref.reading with
    | .factor factorId value =>
      match target.results.filter fun item => item.factorId = factorId with
      | [item] => if item.resolves value then .ok () else .error .placement
      | _ => .error .placement
    | .totalAdjustmentPercent =>
      if target.summary.totalAdjustmentPercent.isSome then .ok () else .error .placement

def bindsContexts (request : PDFWriteRequest) : Bool :=
  request.comparisons.all (fun comparison => comparison.context.isSome) &&
    decide (request.comparisons.filterMap FactorReviewResult.context).Nodup &&
    request.comparisons.all fun comparison => comparison.caseId = request.result.caseId

def validateRequest (rt : Runtime) (request : PDFWriteRequest) : Except PDFErrorCode Unit := do
  let identity (uri : Identifier) := (documentIdentity rt uri.text).mapError Escape.placementCode
  let destination ← identity request.destinationUri
  let sources ← (request.sourceUri :: request.protectedSourceUris).mapM identity
  if destination ∈ sources then .error .sourceDestinationConflict
  else if request.fieldMap.fields.isEmpty then .error .placement
  else if !request.additionalResults.isEmpty && !request.bindsContexts then .error .placement
  else if request.fieldMap.fields.any fun field =>
      field.valueRef.isNone && field.placeholderToken.isNone then .error .placement
  else if !request.additionalResults.isEmpty && request.comparisons.any (fun comparison =>
      comparison.context.any fun context => context ∉ request.fieldMap.contexts) then
    .error .placement
  else do
    request.fieldMap.fields.forM request.resolveField
    if request.additionalResults.isEmpty ∧ 1 < request.fieldMap.contexts.dedup.length then
      .error .placement
    else .ok ()

end PDFWriteRequest

structure PDFWriteResult where
  artifactCreated : Bool := true
  outputUri : Identifier
  pageCount : ℤ
  writtenFieldIds : List Identifier
  warnings : List Identifier := []
  firstPage : 1 ≤ pageCount
  uniqueIds : writtenFieldIds.Nodup

/-- A result as an adapter returned it, before its schema is checked again. -/
structure ReturnedResult where
  artifactCreated : Bool
  outputUri : String
  pageCount : ℤ
  writtenFieldIds : List String
  warnings : List String := []

/-- `PDFWriteResult.model_validate` -/
def ReturnedResult.validate (rt : Runtime) (raw : ReturnedResult) : Option PDFWriteResult := do
  let outputUri ← Identifier.parse raw.outputUri
  let writtenFieldIds ← raw.writtenFieldIds.mapM Identifier.parse
  let warnings ← raw.warnings.mapM Identifier.parse
  if h : 1 ≤ raw.pageCount ∧ writtenFieldIds.Nodup then
    match documentIdentity rt outputUri.text with
    | .ok _ => some ⟨raw.artifactCreated, outputUri, raw.pageCount, writtenFieldIds, warnings, h.1, h.2⟩
    | .error _ => none
  else none

/-- What a writer returned: a result of the declared type or anything else. -/
inductive WriterReturn where
  | result (raw : ReturnedResult)
  | other

/-- An exception in the tools or in the controller itself, by the clauses that tell it apart. -/
inductive ToolError where
  | sourceBinding
  | validation
  | valueError (message : String)
  | pdf (code : PDFErrorCode)
  | other
deriving DecidableEq

def Escape.toolError : Escape → ToolError
  | .valueError message => .valueError message
  | .unsupportedDocumentURI => .pdf .unsupportedUri
  | .validation => .validation
  | .stopIteration | .arithmetic _ => .other

structure ParsedDocument where
  documentUri : String
  pageCount : ℤ
  source : Option SourceDocument := none

def ParsedDocument.valid (parsed : ParsedDocument) : Bool :=
  1 ≤ parsed.pageCount && parsed.source.all SourceDocument.valid

inductive LoadedRules where
  | policy (policy : ReviewPolicy)
  | ruleSet (rules : FactorRuleSet)

inductive ExtractedFacts where
  | case (facts : CaseFacts)
  | factors (pairs : List FactorPair)

structure PDFWriter where
  /-- Whether `supports_multiple_contexts` is the literal `True`. -/
  supportsMultipleContexts : Bool
  writePdf : PDFWriteRequest → Except ToolError WriterReturn

/-- The injected tools. A parser is asked several times: a call is told by its place in the run,
so that it may answer the same URI differently. -/
structure ReviewTools where
  parseDocument : ℕ → String → Except ToolError ParsedDocument
  loadOrBuildRules : ParsedDocument → Except ToolError LoadedRules
  extractFacts : ParsedDocument → String → Except ToolError ExtractedFacts
  permits : Option (ReviewMaterial → Except ToolError Bool)
  verifier : Option (FactorReviewResult → FactorRuleSet → Except ToolError VerificationReport)
  pdfWriter : Option PDFWriter
  minimumConfidence : Binary64
  inRange : minimumConfidence.unit = true

structure AgentReviewRequest where
  caseId : Identifier
  criteriaDocumentUri : Identifier
  caseDocumentUri : Identifier
  pdfTemplateUri : Option Identifier := none
  outputPdfUri : Option Identifier := none
  fieldMap : Option PDFFieldMap := none

/-- `WorkflowStatus` of the review models. -/
inductive ReviewRunStatus where
  | received | needsReview | verified | completed | failed
deriving DecidableEq

inductive ReviewArtifactStatus where
  | notRequested | unavailable | unsupportedContexts | simulated | written
deriving DecidableEq

structure AgentReviewRun where
  caseId : Identifier
  status : ReviewRunStatus
  review : Option FactorReviewResult := none
  caseReview : Option CaseReviewResult := none
  artifactStatus : ReviewArtifactStatus := .notRequested
  verification : Option VerificationReport := none
  outputPdfUri : Option Identifier := none
  pdfResult : Option PDFWriteResult := none
  pdfError : Option PDFErrorCode := none

def VerificationReport.canComplete (report : VerificationReport) : Bool :=
  report.status = .verified && report.criticalErrors.isEmpty

def CaseReviewResult.report (review : CaseReviewResult) : VerificationReport where
  status := review.status
  criticalErrors := (review.findings.filter fun finding => finding.status ≠ .verified).map
    ReviewFinding.trace

def LoadedRules.unapproved : LoadedRules → Bool
  | .policy _ => false
  | .ruleSet rules => rules.status ≠ .approved

/-- `except (ValidationError, ValueError, PDFWriteError)` -/
def ToolError.rebind : ToolError → ToolError
  | .other => .other
  | _ => .sourceBinding

/-- `except (SourceBindingError, UnsupportedDocumentURIError)` -/
def ToolError.unbound : ToolError → Bool
  | .sourceBinding | .pdf .unsupportedUri => true
  | _ => false

/-- The code under which a failed call of the writer, or an unusable answer, is reported. -/
def ToolError.writerCode : ToolError → PDFErrorCode
  | .pdf code => code
  | .validation => .invalidResult
  | _ => .write

namespace ReviewAgentController
variable (rt : Runtime) (ctx : DecimalContext) (sorter : Sorter String) (tools : ReviewTools)

def identity (uri : String) : Except ToolError DocumentIdentity :=
  (documentIdentity rt uri).mapError Escape.toolError

def sameSource (current registered : SourceDocument) : Except ToolError Bool :=
  (current.sameIdentityAndContent rt registered).mapError Escape.toolError

def checkParsed (uri : String) (role : DocumentRole) (parsed : ParsedDocument) :
    Except ToolError ParsedDocument :=
  if !parsed.valid then .error .validation
  else match parsed.source with
    -- Legacy adapters cannot authorize completion.
    | none => if parsed.documentUri ≠ uri then .error .sourceBinding else .ok parsed
    | some source => do
      let asked ← identity rt uri
      let answered ← identity rt parsed.documentUri
      let bound ← identity rt source.uri
      if asked ≠ answered ∨ asked ≠ bound ∨ source.role ≠ role ∨
          parsed.pageCount ≠ source.pages.length then .error .sourceBinding
      else .ok parsed

/-- `_parse` -/
def parse (place : ℕ) (uri : String) (role : DocumentRole) : Except ToolError ParsedDocument :=
  (tools.parseDocument place uri >>= checkParsed rt uri role).mapError ToolError.rebind

/-- The current form of one registered source: a primary document, or a document parsed for it. -/
def locateSource (primary : List SourceDocument) (place : ℕ) (registered : SourceDocument) :
    Except ToolError (Option SourceDocument) := do
  let found ← primary.filterM fun source => do
    let own ← identity rt source.uri
    let other ← identity rt registered.uri
    return decide (own = other)
  match found with
  | [source] => return some source
  | [] =>
    if registered.role = .reference ∨ registered.role = .brief then do
      let parsed ← parse rt tools place registered.uri registered.role
      return parsed.source
    else .error .sourceBinding
  | _ => .error .sourceBinding

def currentSource (primary : List SourceDocument) (place : ℕ) (registered : SourceDocument) :
    Except ToolError (Option SourceDocument) := do
  match ← locateSource rt tools primary place registered with
  | none => return none
  | some source =>
    if ← sameSource rt source registered then return some source else .error .sourceBinding

def currentSources (primary : List SourceDocument) :
    ℕ → List SourceDocument → Except ToolError (List (Option SourceDocument))
  | _, [] => .ok []
  | place, registered :: rest => do
    let current ← currentSource rt tools primary place registered
    let others ← currentSources primary (place + 1) rest
    return current :: others

def primaryRegistered (primary registered : List SourceDocument) : Except ToolError Bool :=
  primary.allM fun source => registered.anyM fun document => sameSource rt source document

structure Reviewed where
  criteria : ParsedDocument
  caseDocument : ParsedDocument
  rules : LoadedRules
  result : Option FactorReviewResult
  caseReview : Option CaseReviewResult := none
  verification : VerificationReport

inductive Preparation where
  | finished (run : AgentReviewRun)
  | reviewed (reviewed : Reviewed)

/-- The authority answers once the material is known to be valid and of one case. -/
def permitted (input : ReviewInput) : Except ToolError Bool :=
  match tools.permits with
  | none => .ok false
  | some permits =>
    if input.policy.valid rt ctx && input.facts.valid && input.registry.valid &&
        input.facts.identity = input.policy.identity then permits ⟨input.policy, input.facts⟩
    else .ok false

def caseReviewer (authorized : Bool) : CaseReviewer where
  authorization := some fun _ => authorized
  minimumConfidence := tools.minimumConfidence
  inRange := tools.inRange

/-- A policy with the current sources; `none` where a source has no typed form. -/
def reviewCase (request : AgentReviewRequest) (criteria caseDocument : ParsedDocument)
    (policy : ReviewPolicy) (facts : CaseFacts) : Except ToolError (Option CaseReviewResult) :=
  if request.caseId.text ≠ policy.identity.caseId then
    .error (.valueError "Request case does not match configured review material")
  else do
    let primary := criteria.source.toList ++ caseDocument.source.toList
    let sources ← currentSources rt tools primary 2 policy.registry.documents
    let registered ← primaryRegistered rt primary policy.registry.documents
    if !registered then .error .sourceBinding
    else if sources.any Option.isNone then return none
    else if !(SourceRegistry.mk (sources.filterMap id)).valid then .error .validation
    else do
      let input : ReviewInput := {
        policy := policy
        facts := facts
        registry := ⟨sources.filterMap id⟩
        forms := caseDocument.source
        criteria := criteria.source }
      let authorized ← permitted rt ctx tools input
      let review ← (AppraisalReview.review rt ctx (caseReviewer tools authorized) sorter input).mapError
        Escape.toolError
      return some review

/-- Legacy adapter shapes still load, but cannot prove complete case review. -/
def reviewLegacy (request : AgentReviewRequest) (rules : FactorRuleSet) (pairs : List FactorPair) :
    Except ToolError (FactorReviewResult × VerificationReport) := do
  let evaluation : FactorEvaluationRequest := ⟨request.caseId.text, rules.ruleSetId, pairs⟩
  if !evaluation.valid then .error .validation
  else do
    let engine : FactorRuleEngine := ⟨rules, tools.minimumConfidence, []⟩
    let result ← (engine.evaluate rt ctx evaluation).mapError Escape.toolError
    match tools.verifier with
    | none => return (result, verifyResult rt ctx engine result none)
    | some verify =>
      let report ← verify result rules
      return (result, report)

def reviewFacts (request : AgentReviewRequest) (criteria caseDocument : ParsedDocument)
    (rules : LoadedRules) (facts : ExtractedFacts) : Except ToolError Preparation :=
  match rules, facts with
  | .policy policy, .case facts => do
    match ← reviewCase rt ctx sorter tools request criteria caseDocument policy facts with
    | none =>
      return .finished {
        caseId := request.caseId
        status := .needsReview
        verification := some ⟨.needsReview, ["A typed current source registry is required"]⟩ }
    | some review =>
      return .reviewed {
        criteria := criteria
        caseDocument := caseDocument
        rules := .policy policy
        result := match review.comparisons with
          | [comparison] => some comparison
          | _ => none
        caseReview := some review
        verification := review.report }
  | .ruleSet rules, .factors pairs => do
    let (result, report) ← reviewLegacy rt ctx tools request rules pairs
    return .reviewed {
      criteria := criteria
      caseDocument := caseDocument
      rules := .ruleSet rules
      result := some result
      verification := report }
  | _, _ => .error (.valueError "Rule and fact adapters must use the same schema generation")

def prepare (request : AgentReviewRequest) : Except ToolError Preparation := do
  let criteria ← parse rt tools 0 request.criteriaDocumentUri.text .criteria
  let rules ← tools.loadOrBuildRules criteria
  if rules.unapproved then
    return .finished { caseId := request.caseId, status := .needsReview }
  else do
    let caseDocument ← parse rt tools 1 request.caseDocumentUri.text .forms
    let facts ← tools.extractFacts caseDocument request.caseId.text
    reviewFacts rt ctx sorter tools request criteria caseDocument rules facts

structure ReviewReply where
  writes : List PDFWriteRequest
  run : Except ToolError AgentReviewRun

namespace Reviewed

def comparisons (reviewed : Reviewed) : List FactorReviewResult :=
  match reviewed.caseReview with
  | some review => review.comparisons
  | none => []

def run (reviewed : Reviewed) (request : AgentReviewRequest) : AgentReviewRun where
  caseId := request.caseId
  status := .verified
  review := reviewed.result
  caseReview := reviewed.caseReview
  verification := some reviewed.verification

def completeMultipleMap (reviewed : Reviewed) (request : AgentReviewRequest) : Bool :=
  let mapped := match request.fieldMap with
    | some fieldMap => fieldMap.contexts
    | none => []
  reviewed.comparisons.all fun comparison => comparison.context.any (· ∈ mapped)

/-- What one write would show: the single result, or all contexts of the case. -/
def targets (reviewed : Reviewed) : List FactorReviewResult :=
  match reviewed.result with
  | some result => [result]
  | none => reviewed.comparisons

def protectedUris (reviewed : Reviewed) : List String :=
  let primary (parsed : ParsedDocument) : String := match parsed.source with
    | some source => source.uri
    | none => parsed.documentUri
  [primary reviewed.criteria, primary reviewed.caseDocument] ++
    match reviewed.rules with
    | .policy policy => policy.registry.documents.map SourceDocument.uri
    | .ruleSet _ => []

end Reviewed

/-- Several contexts are written only where the writer says that it supports them. -/
def writerSupportsMultiple : Bool := tools.pdfWriter.any PDFWriter.supportsMultipleContexts

def pdfFailed (run : AgentReviewRun) (code : PDFErrorCode) : AgentReviewRun :=
  { run with status := .failed, pdfError := some code }

def buildRequest (reviewed : Reviewed) (template destination : Identifier)
    (fieldMap : PDFFieldMap) : Except ToolError (Except PDFErrorCode PDFWriteRequest) := do
  let kept ← reviewed.protectedUris.filterM fun uri => do
    let own ← identity rt uri
    let other ← identity rt template.text
    return decide (own ≠ other)
  match reviewed.targets with
  | [] => .error .other
  | first :: additional => return do
    match kept.eraseDups.mapM Identifier.parse with
    | none => .error .placement
    | some protected_ =>
      let request : PDFWriteRequest := ⟨template, destination, protected_, first, additional, fieldMap⟩
      request.validateRequest rt
      return request

def acceptOutput (write : PDFWriteRequest) : WriterReturn → Except ToolError PDFWriteResult
  | .other => .error (.pdf .invalidResult)
  | .result raw =>
    match raw.validate rt with
    | none => .error .validation
    | some output => do
      let own ← identity rt output.outputUri.text
      let asked ← identity rt write.destinationUri.text
      if own ≠ asked ∨ output.writtenFieldIds.toFinset ≠ write.fieldMap.fieldIds.toFinset then
        .error (.pdf .invalidResult)
      else return output

def writeRun (run : AgentReviewRun) (writer : PDFWriter) (write : PDFWriteRequest) :
    AgentReviewRun :=
  match writer.writePdf write >>= acceptOutput rt write with
  | .error error => pdfFailed run (error.writerCode)
  | .ok output =>
    { run with
      status := if output.artifactCreated then .completed else .verified
      artifactStatus := if output.artifactCreated then .written else .simulated
      outputPdfUri := if output.artifactCreated then some output.outputUri else none
      pdfResult := some output }

def callWriter (request : AgentReviewRequest) (reviewed : Reviewed) (destination : Identifier)
    (writer : PDFWriter) : ReviewReply :=
  let run := reviewed.run request
  match request.pdfTemplateUri, request.fieldMap with
  | some template, some fieldMap =>
    match buildRequest rt reviewed template destination fieldMap with
    | .error error => ⟨[], .error error⟩
    | .ok (.error code) => ⟨[], .ok (pdfFailed run code)⟩
    | .ok (.ok write) => ⟨[write], .ok (writeRun rt run writer write)⟩
  | _, _ => ⟨[], .ok (pdfFailed run .write)⟩

def publish (request : AgentReviewRequest) (reviewed : Reviewed) : ReviewReply :=
  let run := reviewed.run request
  if !reviewed.verification.canComplete then
    ⟨[], .ok { run with
      status := if reviewed.verification.status = .failed then .failed else .needsReview }⟩
  else if reviewed.result.isNone && !(request.outputPdfUri.isSome &&
      decide (1 < reviewed.comparisons.length) && writerSupportsMultiple tools &&
      reviewed.completeMultipleMap request) then
    -- Never written as a partial first context.
    ⟨[], .ok { run with
      artifactStatus := if request.outputPdfUri.isSome then .unsupportedContexts else .notRequested }⟩
  else match request.outputPdfUri, tools.pdfWriter with
    | none, _ => ⟨[], .ok run⟩
    | some _, none => ⟨[], .ok { run with artifactStatus := .unavailable }⟩
    | some destination, some writer => callWriter rt request reviewed destination writer

def unboundRun (request : AgentReviewRequest) : AgentReviewRun where
  caseId := request.caseId
  status := .failed
  verification := some ⟨.failed, ["source_binding: requested and reviewed source must match"]⟩

/-- `_review` -/
def attempt (request : AgentReviewRequest) : ReviewReply :=
  match prepare rt ctx sorter tools request with
  | .error error => ⟨[], .error error⟩
  | .ok (.finished run) => ⟨[], .ok run⟩
  | .ok (.reviewed reviewed) => publish rt tools request reviewed

/-- `review` -/
def review (request : AgentReviewRequest) : ReviewReply :=
  let reply := attempt rt ctx sorter tools request
  match reply.run with
  | .ok run => ⟨reply.writes, .ok run⟩
  | .error error =>
    if error.unbound then ⟨reply.writes, .ok (unboundRun request)⟩
    else ⟨reply.writes, .error error⟩

end ReviewAgentController
end AppraisalReview
