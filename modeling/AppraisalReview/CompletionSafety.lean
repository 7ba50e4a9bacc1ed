import AppraisalReview.Raising
import AppraisalReview.ReviewController

set_option autoImplicit false

/-!
# No unsafe completion

What a returned run says about the call of the writer, the verification it
rests on and the sources that were compared before the review.
-/
namespace AppraisalReview
open Raising TopologicalSort

def AgentReviewRun.comparisons (run : AgentReviewRun) : List FactorReviewResult :=
  match run.caseReview with
  | some review => review.comparisons
  | none => run.review.toList

/-- The writer's answer is a valid result for what it was asked to write. -/
structure PDFWriter.Delivers (rt : Runtime) (writer : PDFWriter) (write : PDFWriteRequest)
    (output : PDFWriteResult) : Prop where
  returned : ∃ raw, writer.writePdf write = .ok (.result raw) ∧ raw.validate rt = some output
  destination : ∃ target, documentIdentity rt output.outputUri.text = .ok target ∧
    documentIdentity rt write.destinationUri.text = .ok target
  fields : ∀ fieldId, fieldId ∈ output.writtenFieldIds ↔ fieldId ∈ write.fieldMap.fieldIds

namespace ReviewAgentController

variable {rt : Runtime} {ctx : DecimalContext} {sorter : Sorter String} {tools : ReviewTools}

theorem acceptOutput_ok {write : PDFWriteRequest} {answer : WriterReturn} {output : PDFWriteResult} :
    acceptOutput rt write answer = .ok output ↔
      ∃ raw, answer = .result raw ∧ raw.validate rt = some output ∧
        (∃ target, documentIdentity rt output.outputUri.text = .ok target ∧
          documentIdentity rt write.destinationUri.text = .ok target) ∧
        ∀ fieldId, fieldId ∈ output.writtenFieldIds ↔ fieldId ∈ write.fieldMap.fieldIds := by
  cases answer with
  | other => exact ⟨fun h => (by cases h), fun ⟨_, h, _⟩ => (by cases h)⟩
  | result raw =>
    simp only [acceptOutput, identity, WriterReturn.result.injEq, exists_eq_left']
    cases raw.validate rt with
    | none => exact ⟨fun h => (by cases h), fun h => (by cases h.1)⟩
    | some checked =>
      simp only [bind_ok, mapError_ok, guard_ok, not_or, not_not, pure_ok, Option.some.injEq,
        Finset.ext_iff, List.mem_toFinset]
      constructor
      · rintro ⟨own, hown, asked, hasked, ⟨rfl, hfields⟩, rfl⟩
        exact ⟨rfl, ⟨own, hown, hasked⟩, hfields⟩
      · rintro ⟨rfl, ⟨target, hown, hasked⟩, hfields⟩
        exact ⟨target, hown, target, hasked, ⟨rfl, hfields⟩, rfl⟩

theorem delivers_iff {writer : PDFWriter} {write : PDFWriteRequest} {output : PDFWriteResult} :
    writer.writePdf write >>= acceptOutput rt write = .ok output ↔ writer.Delivers rt write output := by
  rw [bind_ok]
  constructor
  · rintro ⟨answer, hanswer, haccept⟩
    obtain ⟨raw, rfl, hvalid, hdestination, hfields⟩ := acceptOutput_ok.mp haccept
    exact ⟨⟨raw, hanswer, hvalid⟩, hdestination, hfields⟩
  · rintro ⟨⟨raw, hanswer, hvalid⟩, hdestination, hfields⟩
    exact ⟨_, hanswer, acceptOutput_ok.mpr ⟨raw, rfl, hvalid, hdestination, hfields⟩⟩

theorem writeRun_cases (run : AgentReviewRun) (writer : PDFWriter) (write : PDFWriteRequest) :
    (∃ error, writer.writePdf write >>= acceptOutput rt write = .error error ∧
      writeRun rt run writer write = pdfFailed run error.writerCode) ∨
    ∃ output, writer.Delivers rt write output ∧ writeRun rt run writer write =
      { run with
        status := if output.artifactCreated then .completed else .verified
        artifactStatus := if output.artifactCreated then .written else .simulated
        outputPdfUri := if output.artifactCreated then some output.outputUri else none
        pdfResult := some output } := by
  rw [writeRun]
  cases h : writer.writePdf write >>= acceptOutput rt write with
  | error error => exact Or.inl ⟨error, rfl, rfl⟩
  | ok output => exact Or.inr ⟨output, delivers_iff.mp h, rfl⟩

theorem parse_ok {place : ℕ} {uri : String} {role : DocumentRole} {parsed : ParsedDocument}
    (h : parse rt tools place uri role = .ok parsed) : tools.parseDocument place uri = .ok parsed := by
  obtain ⟨answer, hanswer, hcheck⟩ := bind_ok.mp (mapError_ok.mp h)
  suffices answer = parsed by rw [hanswer, this]
  rw [checkParsed] at hcheck
  obtain ⟨-, hcheck⟩ : _ ∧ _ := by
    split at hcheck
    · cases hcheck
    · exact ⟨‹_›, hcheck⟩
  cases hsource : answer.source with
  | none =>
    simp only [hsource, guard_ok] at hcheck
    exact Except.ok.inj hcheck.2
  | some source =>
    simp only [hsource, bind_ok, guard_ok] at hcheck
    obtain ⟨_, -, _, -, _, -, -, h⟩ := hcheck
    exact Except.ok.inj h

def Parsed (tools : ReviewTools) (source : SourceDocument) : Prop :=
  ∃ place uri parsed, tools.parseDocument place uri = .ok parsed ∧ parsed.source = some source

def Compared (rt : Runtime) (tools : ReviewTools) (registered current : SourceDocument) : Prop :=
  Parsed tools current ∧ current.sameIdentityAndContent rt registered = .ok true

theorem locateSource_ok {primary : List SourceDocument} {place : ℕ}
    {registered current : SourceDocument} (hprimary : ∀ source ∈ primary, Parsed tools source)
    (h : locateSource rt tools primary place registered = .ok (some current)) :
    Parsed tools current := by
  obtain ⟨found, hfound, h⟩ := bind_ok.mp h
  rcases found with _ | ⟨first, _ | ⟨second, others⟩⟩
  · by_cases hrole : registered.role = .reference ∨ registered.role = .brief
    · rw [if_pos hrole] at h
      obtain ⟨parsed, hparse, hsource⟩ := bind_ok.mp h
      exact ⟨_, _, parsed, parse_ok hparse, pure_ok.mp hsource⟩
    · rw [if_neg hrole] at h
      cases h
  · cases pure_ok.mp h
    exact hprimary _ (filterM_subset hfound _ List.mem_cons_self)
  · cases h

theorem currentSource_ok {primary : List SourceDocument} {place : ℕ}
    {registered current : SourceDocument} (hprimary : ∀ source ∈ primary, Parsed tools source)
    (h : currentSource rt tools primary place registered = .ok (some current)) :
    Compared rt tools registered current := by
  obtain ⟨located, hlocated, h⟩ := bind_ok.mp h
  cases located with
  | none => cases pure_ok.mp h
  | some source =>
    obtain ⟨same, hsame, h⟩ := bind_ok.mp h
    cases same with
    | false => cases h
    | true =>
      cases pure_ok.mp h
      exact ⟨locateSource_ok hprimary hlocated, mapError_ok.mp hsame⟩

theorem currentSources_ok {primary : List SourceDocument} {place : ℕ}
    {registered : List SourceDocument} {sources : List (Option SourceDocument)}
    (hprimary : ∀ source ∈ primary, Parsed tools source)
    (h : currentSources rt tools primary place registered = .ok sources)
    (hall : sources.any Option.isNone = false) :
    List.Forall₂ (Compared rt tools) registered (sources.filterMap id) := by
  induction registered generalizing place sources with
  | nil =>
    cases h
    exact .nil
  | cons document rest ih =>
    obtain ⟨current, hcurrent, h⟩ := bind_ok.mp h
    obtain ⟨others, hothers, h⟩ := bind_ok.mp h
    cases pure_ok.mp h
    rw [List.any_cons, Bool.or_eq_false_iff] at hall
    cases current with
    | none => cases hall.1
    | some source => exact .cons (currentSource_ok hprimary hcurrent) (ih hothers hall.2)

/-- The review ran on current sources that were each compared with the registered one. -/
def ComparedFirst (rt : Runtime) (ctx : DecimalContext) (sorter : Sorter String)
    (tools : ReviewTools) (review : CaseReviewResult) : Prop :=
  ∃ (criteria : ParsedDocument) (authorized : Bool) (input : ReviewInput),
    tools.loadOrBuildRules criteria = .ok (.policy input.policy) ∧
    List.Forall₂ (Compared rt tools) input.policy.registry.documents input.registry.documents ∧
    AppraisalReview.review rt ctx (caseReviewer tools authorized) sorter input = .ok review

theorem reviewCase_ok {request : AgentReviewRequest} {criteria caseDocument : ParsedDocument}
    {policy : ReviewPolicy} {facts : CaseFacts} {review : CaseReviewResult}
    (hrules : tools.loadOrBuildRules criteria = .ok (.policy policy))
    (hprimary : ∀ source ∈ criteria.source.toList ++ caseDocument.source.toList, Parsed tools source)
    (h : reviewCase rt ctx sorter tools request criteria caseDocument policy facts =
      .ok (some review)) : ComparedFirst rt ctx sorter tools review := by
  simp only [reviewCase, guard_ok, bind_ok] at h
  obtain ⟨-, sources, hsources, registered, -, -, h⟩ := h
  by_cases hnone : sources.any Option.isNone = true
  · rw [if_pos hnone] at h
    cases pure_ok.mp h
  · rw [if_neg hnone] at h
    simp only [guard_ok, bind_ok, mapError_ok] at h
    obtain ⟨-, authorized, -, result, hreview, h⟩ := h
    cases pure_ok.mp h
    exact ⟨criteria, authorized, _, hrules,
      currentSources_ok hprimary hsources (Bool.not_eq_true _ ▸ hnone), hreview⟩

/-- The result shown is the review's only comparison. -/
structure Reviewed.Sound (rt : Runtime) (ctx : DecimalContext) (sorter : Sorter String)
    (tools : ReviewTools) (reviewed : Reviewed) : Prop where
  targets : ∀ review, reviewed.caseReview = some review → reviewed.targets = review.comparisons
  legacy : reviewed.caseReview = none → reviewed.result.isSome
  compared : ∀ review, reviewed.caseReview = some review →
    ComparedFirst rt ctx sorter tools review

theorem primary_parsed {criteria caseDocument : ParsedDocument} {uri uri' : String}
    (hcriteria : tools.parseDocument 0 uri = .ok criteria)
    (hcase : tools.parseDocument 1 uri' = .ok caseDocument) :
    ∀ source ∈ criteria.source.toList ++ caseDocument.source.toList, Parsed tools source := by
  intro source hsource
  rcases List.mem_append.mp hsource with h | h
  · exact ⟨0, uri, criteria, hcriteria, Option.mem_toList.mp h⟩
  · exact ⟨1, uri', caseDocument, hcase, Option.mem_toList.mp h⟩

/-- A preparation stops without a review, or hands a sound one to the gate. -/
def Preparation.Sound (rt : Runtime) (ctx : DecimalContext) (sorter : Sorter String)
    (tools : ReviewTools) : Preparation → Prop
  | .finished run => run.caseReview = none ∧ run.status = .needsReview ∧ run.outputPdfUri = none
  | .reviewed outcome => outcome.Sound rt ctx sorter tools

theorem reviewFacts_sound {request : AgentReviewRequest} {criteria caseDocument : ParsedDocument}
    {rules : LoadedRules} {facts : ExtractedFacts} {preparation : Preparation}
    (hrules : tools.loadOrBuildRules criteria = .ok rules)
    (hprimary : ∀ source ∈ criteria.source.toList ++ caseDocument.source.toList, Parsed tools source)
    (h : reviewFacts rt ctx sorter tools request criteria caseDocument rules facts =
      .ok preparation) : preparation.Sound rt ctx sorter tools := by
  cases rules with
  | policy policy =>
    cases facts with
    | factors pairs => cases h
    | case facts =>
      obtain ⟨reviewed, hreview, h⟩ := bind_ok.mp h
      cases reviewed with
      | none =>
        cases pure_ok.mp h
        exact ⟨rfl, rfl, rfl⟩
      | some review =>
        cases pure_ok.mp h
        refine ⟨?_, (by rintro ⟨⟩), ?_⟩
        · rintro _ ⟨⟩
          obtain ⟨identity, comparisons, findings, coverage, status⟩ := review
          rcases comparisons with _ | ⟨first, _ | ⟨second, others⟩⟩ <;> rfl
        · rintro _ ⟨⟩
          exact reviewCase_ok hrules hprimary hreview
  | ruleSet rules =>
    cases facts with
    | case facts => cases h
    | factors pairs =>
      obtain ⟨⟨result, report⟩, -, h⟩ := bind_ok.mp h
      cases pure_ok.mp h
      exact ⟨(by rintro _ ⟨⟩), fun _ => rfl, (by rintro _ ⟨⟩)⟩

theorem prepare_sound {request : AgentReviewRequest} {preparation : Preparation}
    (h : prepare rt ctx sorter tools request = .ok preparation) :
    preparation.Sound rt ctx sorter tools := by
  obtain ⟨criteria, hcriteria, h⟩ := bind_ok.mp h
  obtain ⟨rules, hrules, h⟩ := bind_ok.mp h
  by_cases happroved : rules.unapproved = true
  · rw [if_pos happroved] at h
    cases pure_ok.mp h
    exact ⟨rfl, rfl, rfl⟩
  · rw [if_neg happroved] at h
    obtain ⟨caseDocument, hcase, h⟩ := bind_ok.mp h
    obtain ⟨facts, -, h⟩ := bind_ok.mp h
    exact reviewFacts_sound hrules (primary_parsed (parse_ok hcriteria) (parse_ok hcase)) h

/-- What holds of a returned run and of the requests that the writer received. -/
structure SafeRun (rt : Runtime) (ctx : DecimalContext) (sorter : Sorter String)
    (tools : ReviewTools) (request : AgentReviewRequest) (writes : List PDFWriteRequest)
    (run : AgentReviewRun) : Prop where
  once : writes.length ≤ 1
  verified : ∀ write ∈ writes, ∃ report, run.verification = some report ∧
    report.status = .verified ∧ report.criticalErrors = []
  whole : ∀ write ∈ writes, write.comparisons = run.comparisons
  requested : ∀ write ∈ writes, request.outputPdfUri = some write.destinationUri ∧
    request.fieldMap = some write.fieldMap
  several : ∀ write ∈ writes, 1 < run.comparisons.length →
    (∃ writer, tools.pdfWriter = some writer ∧ writer.supportsMultipleContexts = true) ∧
    ∀ comparison ∈ run.comparisons, ∃ context, comparison.context = some context ∧
      ∃ field ∈ write.fieldMap.fields, ∃ ref, field.valueRef = some ref ∧ ref.context = context
  completed : run.status = .completed ↔ ∃ write ∈ writes, ∃ writer output,
    tools.pdfWriter = some writer ∧ writer.Delivers rt write output ∧ output.artifactCreated = true
  output : run.outputPdfUri.isSome → run.status = .completed
  compared : ∀ review, run.caseReview = some review → ComparedFirst rt ctx sorter tools review
  failed : ∀ write ∈ writes, ∀ writer, tools.pdfWriter = some writer →
    (¬ ∃ output, writer.Delivers rt write output) →
    run.status = .failed ∧ run.pdfError.isSome ∧ run.pdfResult = none ∧ run.outputPdfUri = none

theorem SafeRun.unwritten {request : AgentReviewRequest} {run : AgentReviewRun}
    (hstatus : run.status ≠ .completed) (houtput : run.outputPdfUri = none)
    (hcompared : ∀ review, run.caseReview = some review →
      ComparedFirst rt ctx sorter tools review) :
    SafeRun rt ctx sorter tools request [] run where
  once := Nat.zero_le 1
  verified _ h := absurd h List.not_mem_nil
  whole _ h := absurd h List.not_mem_nil
  requested _ h := absurd h List.not_mem_nil
  several _ h := absurd h List.not_mem_nil
  completed := ⟨fun h => absurd h hstatus, fun ⟨_, h, _⟩ => absurd h List.not_mem_nil⟩
  output h := by
    rw [houtput] at h
    cases h
  compared := hcompared
  failed _ h := absurd h List.not_mem_nil

theorem canComplete_iff {report : VerificationReport} :
    report.canComplete = true ↔ report.status = .verified ∧ report.criticalErrors = [] := by
  simp [VerificationReport.canComplete]

/-- The request that was built shows the targets and goes where it was asked to. -/
theorem buildRequest_ok {reviewed : Reviewed} {template destination : Identifier}
    {fieldMap : PDFFieldMap} {write : PDFWriteRequest}
    (h : buildRequest rt reviewed template destination fieldMap = .ok (.ok write)) :
    write.comparisons = reviewed.targets ∧ write.destinationUri = destination ∧
      write.fieldMap = fieldMap := by
  obtain ⟨kept, -, h⟩ := bind_ok.mp h
  cases htargets : reviewed.targets with
  | nil =>
    rw [htargets] at h
    cases h
  | cons first additional =>
    simp only [htargets] at h
    have h := pure_ok.mp h
    cases hprotected : kept.eraseDups.mapM Identifier.parse with
    | none =>
      rw [hprotected] at h
      cases h
    | some protected_ =>
      simp only [hprotected] at h
      obtain ⟨-, -, h⟩ := bind_ok.mp h
      cases pure_ok.mp h
      exact ⟨rfl, rfl, rfl⟩

theorem publish_written {request : AgentReviewRequest} {reviewed : Reviewed} {run : AgentReviewRun}
    {write : PDFWriteRequest} {writer : PDFWriter} {template : Identifier}
    (hsound : reviewed.Sound rt ctx sorter tools) (hcomplete : reviewed.verification.canComplete = true)
    (hsupported : reviewed.result = none → writerSupportsMultiple tools = true ∧
      reviewed.completeMultipleMap request = true)
    (hwriter : tools.pdfWriter = some writer) (houtput : request.outputPdfUri = some write.destinationUri)
    (hmap : request.fieldMap = some write.fieldMap)
    (hbuild : buildRequest rt reviewed template write.destinationUri write.fieldMap = .ok (.ok write))
    (hrun : run = writeRun rt (reviewed.run request) writer write) :
    SafeRun rt ctx sorter tools request [write] run := by
  have hshown : write.comparisons = (reviewed.run request).comparisons := by
    rw [(buildRequest_ok hbuild).1, AgentReviewRun.comparisons]
    cases hreview : reviewed.caseReview with
    | some review =>
      rw [show (reviewed.run request).caseReview = some review from hreview]
      exact hsound.targets review hreview
    | none =>
      rw [show (reviewed.run request).caseReview = none from hreview, Reviewed.targets]
      obtain ⟨result, hresult⟩ := Option.isSome_iff_exists.mp (hsound.legacy hreview)
      rw [hresult, show (reviewed.run request).review = some result from hresult]
      rfl
  have hcases := @writeRun_cases rt (reviewed.run request) writer write
  rw [← hrun] at hcases
  -- Neither ending touches what was reviewed.
  have hkept : run.comparisons = (reviewed.run request).comparisons ∧
      run.verification = some reviewed.verification ∧ run.caseReview = reviewed.caseReview := by
    rcases hcases with ⟨error, -, rfl⟩ | ⟨output, -, rfl⟩ <;> exact ⟨rfl, rfl, rfl⟩
  obtain ⟨hcomparisons, hverification, hreview⟩ := hkept
  constructor
  case once => exact Nat.le_refl 1
  case verified =>
    intro _ _
    exact ⟨_, hverification, canComplete_iff.mp hcomplete⟩
  case whole =>
    intro w hw
    rw [List.mem_singleton.mp hw, hshown, hcomparisons]
  case requested =>
    intro w hw
    rw [List.mem_singleton.mp hw]
    exact ⟨houtput, hmap⟩
  case several =>
    intro w hw hlength
    rw [List.mem_singleton.mp hw]
    rw [hcomparisons, ← hshown, (buildRequest_ok hbuild).1] at *
    cases hresult : reviewed.result with
    | some result =>
      rw [Reviewed.targets, hresult] at hlength
      exact absurd hlength (Nat.lt_irrefl 1)
    | none =>
      obtain ⟨hmultiple, hcovered⟩ := hsupported hresult
      rw [writerSupportsMultiple, hwriter] at hmultiple
      refine ⟨⟨writer, hwriter, hmultiple⟩, fun comparison hmem => ?_⟩
      rw [Reviewed.targets, hresult] at hmem
      rw [Reviewed.completeMultipleMap, hmap, List.all_eq_true] at hcovered
      obtain ⟨context, hcontext, hmapped⟩ := (Option.any_eq_true _ _).mp (hcovered comparison hmem)
      obtain ⟨field, hfield, href⟩ := List.mem_filterMap.mp (of_decide_eq_true hmapped)
      obtain ⟨ref, hvalue, hbound⟩ := Option.map_eq_some_iff.mp href
      exact ⟨context, hcontext, field, hfield, ref, hvalue, hbound⟩
  case completed =>
    rcases hcases with ⟨error, herror, rfl⟩ | ⟨output, hdelivers, rfl⟩
    · refine ⟨nofun, ?_⟩
      rintro ⟨w, hw, writer', output, hwriter', hdelivers, -⟩
      cases List.mem_singleton.mp hw
      cases hwriter.symm.trans hwriter'
      cases herror.symm.trans (delivers_iff.mpr hdelivers)
    · constructor
      · intro hstatus
        refine ⟨write, List.mem_singleton_self _, writer, output, hwriter, hdelivers, ?_⟩
        by_contra hcreated
        rw [show (if output.artifactCreated then ReviewRunStatus.completed else .verified) =
          .verified from if_neg hcreated] at hstatus
        cases hstatus
      · rintro ⟨w, hw, writer', output', hwriter', hdelivers', hcreated⟩
        cases List.mem_singleton.mp hw
        cases hwriter.symm.trans hwriter'
        cases (delivers_iff.mpr hdelivers).symm.trans (delivers_iff.mpr hdelivers')
        exact if_pos hcreated
  case output =>
    rcases hcases with ⟨error, -, rfl⟩ | ⟨output, -, rfl⟩
    · intro h
      cases h
    · intro h
      by_cases hcreated : output.artifactCreated = true
      · exact if_pos hcreated
      · rw [show (if output.artifactCreated then some output.outputUri else none) = none from
          if_neg hcreated] at h
        cases h
  case compared =>
    intro review h
    exact hsound.compared review (hreview ▸ h)
  case failed =>
    intro w hw writer' hwriter' hfailed
    cases List.mem_singleton.mp hw
    cases hwriter.symm.trans hwriter'
    rcases hcases with ⟨error, -, rfl⟩ | ⟨output, hdelivers, -⟩
    · exact ⟨rfl, rfl, rfl, rfl⟩
    · exact absurd ⟨output, hdelivers⟩ hfailed

def Unwritten (reviewed : Reviewed) (reply : ReviewReply) : Prop :=
  reply.writes = [] ∧ ∀ run, reply.run = .ok run → run.status ≠ .completed ∧
    run.outputPdfUri = none ∧ run.caseReview = reviewed.caseReview

theorem Unwritten.safe {request : AgentReviewRequest} {reviewed : Reviewed} {reply : ReviewReply}
    {run : AgentReviewRun} (hsound : reviewed.Sound rt ctx sorter tools)
    (h : Unwritten reviewed reply) (hrun : reply.run = .ok run) :
    SafeRun rt ctx sorter tools request reply.writes run := by
  obtain ⟨hstatus, houtput, hreview⟩ := h.2 run hrun
  rw [h.1]
  exact SafeRun.unwritten hstatus houtput fun review hsome =>
    hsound.compared review (hreview ▸ hsome)

theorem Unwritten.report {reviewed : Reviewed} {run : AgentReviewRun}
    (hstatus : run.status ≠ .completed) (houtput : run.outputPdfUri = none)
    (hreview : run.caseReview = reviewed.caseReview) : Unwritten reviewed ⟨[], .ok run⟩ := by
  refine ⟨rfl, ?_⟩
  rintro _ ⟨⟩
  exact ⟨hstatus, houtput, hreview⟩

theorem callWriter_safe {request : AgentReviewRequest} {reviewed : Reviewed} {run : AgentReviewRun}
    {destination : Identifier} {writer : PDFWriter}
    (hsound : reviewed.Sound rt ctx sorter tools) (hcomplete : reviewed.verification.canComplete = true)
    (hsupported : reviewed.result = none → writerSupportsMultiple tools = true ∧
      reviewed.completeMultipleMap request = true)
    (hwriter : tools.pdfWriter = some writer) (houtput : request.outputPdfUri = some destination)
    (h : (callWriter rt request reviewed destination writer).run = .ok run) :
    SafeRun rt ctx sorter tools request
      (callWriter rt request reviewed destination writer).writes run := by
  have hblocked : ∀ code, Unwritten reviewed ⟨[], .ok (pdfFailed (reviewed.run request) code)⟩ :=
    fun _ => Unwritten.report ReviewRunStatus.noConfusion rfl rfl
  cases htemplate : request.pdfTemplateUri with
  | none =>
    have hcall : callWriter rt request reviewed destination writer =
        ⟨[], .ok (pdfFailed (reviewed.run request) .write)⟩ := by rw [callWriter, htemplate]
    rw [hcall] at h ⊢
    exact (hblocked _).safe hsound h
  | some template =>
    cases hmap : request.fieldMap with
    | none =>
      have hcall : callWriter rt request reviewed destination writer =
          ⟨[], .ok (pdfFailed (reviewed.run request) .write)⟩ := by rw [callWriter, htemplate, hmap]
      rw [hcall] at h ⊢
      exact (hblocked _).safe hsound h
    | some fieldMap =>
      simp only [callWriter, htemplate, hmap] at h ⊢
      cases hbuild : buildRequest rt reviewed template destination fieldMap with
      | error error =>
        rw [hbuild] at h
        cases h
      | ok built =>
        rw [hbuild] at h
        cases built with
        | error code => exact (hblocked code).safe hsound h
        | ok write =>
          obtain ⟨-, rfl, rfl⟩ := buildRequest_ok hbuild
          exact publish_written hsound hcomplete hsupported hwriter houtput hmap hbuild
            (Except.ok.inj h).symm

theorem publish_safe {request : AgentReviewRequest} {reviewed : Reviewed} {run : AgentReviewRun}
    (hsound : reviewed.Sound rt ctx sorter tools)
    (h : (publish rt tools request reviewed).run = .ok run) :
    SafeRun rt ctx sorter tools request (publish rt tools request reviewed).writes run := by
  rw [publish] at h ⊢
  by_cases hcomplete : reviewed.verification.canComplete = true
  case neg =>
    rw [Bool.eq_false_of_not_eq_true hcomplete, Bool.not_false, if_pos rfl] at h ⊢
    refine (Unwritten.report ?_ rfl rfl).safe hsound h
    change (if reviewed.verification.status = .failed then ReviewRunStatus.failed
      else .needsReview) ≠ .completed
    split_ifs <;> exact nofun
  rw [hcomplete, Bool.not_true, if_neg Bool.false_ne_true] at h ⊢
  by_cases hsupported : (reviewed.result.isNone && !(request.outputPdfUri.isSome &&
      decide (1 < reviewed.comparisons.length) && writerSupportsMultiple tools &&
      reviewed.completeMultipleMap request)) = true
  case pos =>
    rw [if_pos hsupported] at h ⊢
    refine (Unwritten.report ?_ rfl rfl).safe hsound h
    exact ReviewRunStatus.noConfusion
  rw [if_neg hsupported] at h ⊢
  have hmultiple : reviewed.result = none → writerSupportsMultiple tools = true ∧
      reviewed.completeMultipleMap request = true := by
    intro hnone
    simp only [hnone, Option.isNone_none, Bool.true_and, Bool.not_eq_true, Bool.not_eq_false',
      Bool.and_eq_true] at hsupported
    exact ⟨hsupported.1.2, hsupported.2⟩
  cases houtput : request.outputPdfUri with
  | none =>
    rw [houtput] at h
    refine (Unwritten.report ?_ rfl rfl).safe hsound h
    exact ReviewRunStatus.noConfusion
  | some destination =>
    cases hwriter : tools.pdfWriter with
    | none =>
      rw [houtput, hwriter] at h
      refine (Unwritten.report ?_ rfl rfl).safe hsound h
      exact ReviewRunStatus.noConfusion
    | some writer =>
      rw [houtput, hwriter] at h
      exact callWriter_safe hsound hcomplete hmultiple hwriter houtput h

theorem attempt_safe {request : AgentReviewRequest} {run : AgentReviewRun}
    (h : (attempt rt ctx sorter tools request).run = .ok run) :
    SafeRun rt ctx sorter tools request (attempt rt ctx sorter tools request).writes run := by
  rw [attempt] at h ⊢
  cases hprepare : prepare rt ctx sorter tools request with
  | error error =>
    rw [hprepare] at h
    cases h
  | ok preparation =>
    rw [hprepare] at h
    have hsound := prepare_sound hprepare
    cases preparation with
    | finished finished =>
      cases h
      obtain ⟨hreview, hstatus, houtput⟩ := hsound
      refine SafeRun.unwritten (hstatus ▸ nofun) houtput fun review hsome => ?_
      cases hreview.symm.trans hsome
    | reviewed reviewed => exact publish_safe hsound h

theorem callWriter_answers (request : AgentReviewRequest) (reviewed : Reviewed)
    (destination : Identifier) (writer : PDFWriter) :
    (callWriter rt request reviewed destination writer).writes = [] ∨
      ∃ run, (callWriter rt request reviewed destination writer).run = .ok run := by
  rw [callWriter]
  split
  · split
    · exact Or.inl rfl
    · exact Or.inl rfl
    · exact Or.inr ⟨_, rfl⟩
  · exact Or.inl rfl

theorem attempt_answers (request : AgentReviewRequest) :
    (attempt rt ctx sorter tools request).writes = [] ∨
      ∃ run, (attempt rt ctx sorter tools request).run = .ok run := by
  rw [attempt]
  split
  · exact Or.inl rfl
  · exact Or.inl rfl
  · rw [publish]
    split
    · exact Or.inl rfl
    split
    · exact Or.inl rfl
    split
    · exact Or.inl rfl
    · exact Or.inl rfl
    · exact callWriter_answers _ _ _ _

/-- Whatever the tools do, a returned run is safe. -/
theorem review_safe (request : AgentReviewRequest) (run : AgentReviewRun)
    (h : (review rt ctx sorter tools request).run = .ok run) :
    SafeRun rt ctx sorter tools request (review rt ctx sorter tools request).writes run := by
  rw [review] at h ⊢
  cases hattempt : (attempt rt ctx sorter tools request).run with
  | ok attempted =>
    simp only [hattempt] at h ⊢
    cases h
    exact attempt_safe hattempt
  | error error =>
    simp only [hattempt] at h ⊢
    by_cases hunbound : error.unbound = true
    · rw [if_pos hunbound] at h ⊢
      cases h
      obtain hwrites | ⟨run, hrun⟩ := @attempt_answers rt ctx sorter tools request
      · rw [hwrites]
        exact SafeRun.unwritten ReviewRunStatus.noConfusion rfl nofun
      · cases hattempt.symm.trans hrun
    · rw [if_neg hunbound] at h
      cases h

def sampleFieldMap : PDFFieldMap where
  fields := [{
    fieldId := ⟨"f", by decide, by decide⟩
    placeholderToken := some "APR-PH-00000000"
    oneValueSource := Or.inl rfl }]
  uniqueIds := by decide

def sampleRequest : AgentReviewRequest where
  caseId := ⟨"case", by decide, by decide⟩
  criteriaDocumentUri := ⟨"file:///c", by decide, by decide⟩
  caseDocumentUri := ⟨"file:///c", by decide, by decide⟩
  pdfTemplateUri := some ⟨"file:///t", by decide, by decide⟩
  outputPdfUri := some ⟨"file:///o", by decide, by decide⟩
  fieldMap := some sampleFieldMap

/-- Tools of the legacy shapes with a verifier of its own and a writer that does what it is told. -/
def sampleTools : ReviewTools where
  parseDocument _ uri := .ok ⟨uri, 1, none⟩
  loadOrBuildRules _ := .ok (.ruleSet { sampleRules.rules with status := .approved })
  extractFacts _ _ := .ok (.factors [])
  permits := none
  verifier := some fun _ _ => .ok ⟨.verified, []⟩
  pdfWriter := some ⟨false, fun write => .ok (.result ⟨true, write.destinationUri.text, 1, ["f"], []⟩)⟩
  minimumConfidence := one64
  inRange := one64_unit

def secondContext : ComparisonContext := ⟨.regional, "t", "d"⟩

def severalContexts : List ComparisonContext := [sampleContext, secondContext]

/-- The sample policy for two comparables, with the same rules in both contexts. -/
def severalPolicy : ReviewPolicy where
  identity := sampleIdentity
  registry := sampleRegistry
  inventory := { sampleInventory with
    contexts := severalContexts.map fun context =>
      ⟨context, ["factor"], [sampleCitation "forms" "yes"]⟩ }
  ruleSets := severalContexts.map fun context => { sampleRules with context := context }

def severalFacts : CaseFacts := { sampleFacts with
  pairs := severalContexts.map fun context => { samplePair with context := context } }

def severalFieldMap : PDFFieldMap where
  fields := [
    { fieldId := ⟨"first", by decide, by decide⟩
      valueRef := some ⟨sampleContext, .totalAdjustmentPercent⟩
      oneValueSource := Or.inr rfl },
    { fieldId := ⟨"second", by decide, by decide⟩
      valueRef := some ⟨secondContext, .factor "factor" .targetGrade⟩
      oneValueSource := Or.inr rfl }]
  uniqueIds := by decide

def severalRequest : AgentReviewRequest where
  caseId := ⟨"case", by decide, by decide⟩
  criteriaDocumentUri := ⟨"file:///criteria.pdf", by decide, by decide⟩
  caseDocumentUri := ⟨"file:///forms.pdf", by decide, by decide⟩
  pdfTemplateUri := some ⟨"file:///t", by decide, by decide⟩
  outputPdfUri := some ⟨"file:///o", by decide, by decide⟩
  fieldMap := some severalFieldMap

/-- Tools of the typed shapes with a writer that supports several contexts. -/
def severalTools : ReviewTools where
  parseDocument place uri := .ok ⟨uri, 1, some (if place = 0 then sampleCriteria else sampleForms)⟩
  loadOrBuildRules _ := .ok (.policy severalPolicy)
  extractFacts _ _ := .ok (.case severalFacts)
  permits := some fun _ => .ok true
  verifier := none
  pdfWriter := some ⟨true, fun write =>
    .ok (.result ⟨true, write.destinationUri.text, 1, ["second", "first"], []⟩)⟩
  minimumConfidence := one64
  inRange := one64_unit

/-- A completed run over the legacy shapes, and one over a policy with two contexts. -/
theorem review_safe_sample :
    (∃ run, (review sampleRuntime .default .kahn sampleTools sampleRequest).run = .ok run ∧
      run.status = .completed ∧
      SafeRun sampleRuntime .default .kahn sampleTools sampleRequest
        (review sampleRuntime .default .kahn sampleTools sampleRequest).writes run) ∧
    ∃ run, (review sampleRuntime .default .kahn severalTools severalRequest).run = .ok run ∧
      (run.status = .completed ∧ run.comparisons.length = 2) ∧
      SafeRun sampleRuntime .default .kahn severalTools severalRequest
        (review sampleRuntime .default .kahn severalTools severalRequest).writes run := by
  constructor
  · have hstatus : (review sampleRuntime .default .kahn sampleTools sampleRequest).run.map
        AgentReviewRun.status = .ok .completed := by decide +kernel
    obtain ⟨run, hrun, hcompleted⟩ := map_ok.mp hstatus
    exact ⟨run, hrun, hcompleted, review_safe sampleRequest run hrun⟩
  · have hreached : (review sampleRuntime .default .kahn severalTools severalRequest).run.map
        (fun run => (run.status, run.comparisons.length)) = .ok (.completed, 2) := by
      decide +kernel
    obtain ⟨run, hrun, hpair⟩ := map_ok.mp hreached
    exact ⟨run, hrun, Prod.mk.inj hpair, review_safe severalRequest run hrun⟩

end ReviewAgentController
end AppraisalReview
