import AppraisalReview.CorrectionFrame
import AppraisalReview.ResponseAtomicity

set_option autoImplicit false

/-!
# The confidence of a corrected side

A native reading counts no more than its least certain evidence. A correction
leaves the measured score alone, but it may leave behind the evidence that held
the side down.
-/
namespace AppraisalReview
open Raising

namespace Binary64

theorem least_le_iff {first bound : Binary64} {rest : List Binary64} :
    (first.least rest).le bound = true ↔
      first.le bound = true ∨ ∃ x ∈ rest, x.le bound = true := by
  induction rest generalizing first with
  | nil => simp [least]
  | cons y rest ih =>
    have hstep : first.least (y :: rest) = (if y.lt first then y else first).least rest := rfl
    rw [hstep, ih]
    simp only [le, lt, Decimal.le_iff, Decimal.lt_iff, List.exists_mem_cons_iff]
    by_cases hlow : y.decimal.value < first.decimal.value
    · rw [if_pos hlow]
      constructor
      · rintro (h | h)
        · exact Or.inr (Or.inl h)
        · exact Or.inr (Or.inr h)
      · rintro (h | h | h)
        · exact Or.inl (hlow.le.trans h)
        · exact Or.inl h
        · exact Or.inr h
    · rw [if_neg hlow]
      constructor
      · rintro (h | h)
        · exact Or.inl h
        · exact Or.inr (Or.inr h)
      · rintro (h | h | h)
        · exact Or.inl h
        · exact Or.inl ((not_lt.mp hlow).trans h)
        · exact Or.inr h

theorem le_least_iff {first bound : Binary64} {rest : List Binary64} :
    bound.le (first.least rest) = true ↔
      bound.le first = true ∧ ∀ x ∈ rest, bound.le x = true := by
  induction rest generalizing first with
  | nil => simp [least]
  | cons y rest ih =>
    have hstep : first.least (y :: rest) = (if y.lt first then y else first).least rest := rfl
    rw [hstep, ih]
    simp only [le, lt, Decimal.le_iff, Decimal.lt_iff, List.forall_mem_cons]
    by_cases hlow : y.decimal.value < first.decimal.value
    · rw [if_pos hlow]
      exact ⟨fun h => ⟨h.1.trans hlow.le, h.1, h.2⟩, fun h => ⟨h.2.1, h.2.2⟩⟩
    · rw [if_neg hlow]
      exact ⟨fun h => ⟨h.1, h.1.trans (not_lt.mp hlow), h.2⟩, fun h => ⟨h.1, h.2.2⟩⟩

theorem le_refl (x : Binary64) : x.le x = true := by simp [le]

theorem le_trans {x y z : Binary64} (hxy : x.le y = true) (hyz : y.le z = true) :
    x.le z = true := by
  simp only [le, Decimal.le_iff] at *
  exact hxy.trans hyz

end Binary64

/-- The scores of the evidence; a side without evidence counts as nothing. -/
def FactorObservation.marks (observation : FactorObservation) : List Binary64 :=
  if observation.evidence = [] then [zero64] else observation.evidence.map EvidenceRef.confidence

def FactorObservation.effective (observation : FactorObservation) : Binary64 :=
  if observation.evidence = [] then zero64
  else observation.confidence.least (observation.evidence.map EvidenceRef.confidence)

/-- No side of any pair counts for more than it did. -/
def NotRaised (before after : List EvidencedPair) : Prop :=
  List.Forall₂ (fun old new => ∀ side,
    (new.pair.observation side).effective.le (old.pair.observation side).effective = true)
    before after

/-- A score of the old evidence bounds the measured score or a score of the new evidence. -/
theorem FactorObservation.effective_le_iff {old new : FactorObservation} (hnew : new.evidence ≠ [])
    (hscore : new.confidence.le old.confidence = true) :
    new.effective.le old.effective = true ↔ ∀ mark ∈ old.marks,
      new.confidence.le mark = true ∨ ∃ item ∈ new.evidence, item.confidence.le mark = true := by
  have hbound : ∀ bound, new.effective.le bound = true ↔
      new.confidence.le bound = true ∨ ∃ item ∈ new.evidence, item.confidence.le bound = true := by
    intro bound
    rw [effective, if_neg hnew, Binary64.least_le_iff]
    simp only [List.mem_map, exists_exists_and_eq_and]
  by_cases hold : old.evidence = []
  · simp only [marks, if_pos hold, List.mem_singleton, forall_eq, hbound]
    rw [effective, if_pos hold]
  · simp only [marks, if_neg hold, ← hbound]
    rw [show old.effective =
      old.confidence.least (old.evidence.map EvidenceRef.confidence) from if_neg hold,
      Binary64.le_least_iff]
    exact ⟨And.right, fun h => ⟨(hbound _).mpr (Or.inl hscore), h⟩⟩

theorem FactorObservation.effective_le_of_evidence {old new : FactorObservation}
    (hevidence : new.evidence = old.evidence)
    (hscore : new.confidence.le old.confidence = true) :
    new.effective.le old.effective = true := by
  by_cases hold : old.evidence = []
  · rw [effective, effective, if_pos hold, if_pos (hevidence.trans hold)]
    exact Binary64.le_refl _
  · refine (effective_le_iff (hevidence ▸ hold) hscore).mpr fun mark hmark => Or.inr ?_
    rw [marks, if_neg hold] at hmark
    obtain ⟨item, hitem, rfl⟩ := List.mem_map.mp hmark
    exact ⟨item, hevidence ▸ hitem, Binary64.le_refl _⟩

theorem notRaised_edit {pairs : List EvidencedPair} {answered : EvidencedPair → Bool} {side : Side}
    {pair edited : EvidencedPair} (hsingle : pairs.filter answered = [pair])
    (hedit : Edited answered side pair edited) :
    NotRaised pairs (pairs.map fun old => if answered old then edited else old) ↔
      (edited.pair.observation side).effective.le (pair.pair.observation side).effective = true := by
  have hpair := List.mem_filter.mp (hsingle ▸ List.mem_singleton_self pair)
  rw [NotRaised, List.forall₂_map_right_iff, List.forall₂_same]
  constructor
  · intro h
    have hside := h pair hpair.1 side
    rwa [if_pos hpair.2] at hside
  · intro h old hold other
    by_cases hanswered : answered old = true
    · rw [if_pos hanswered,
        List.mem_singleton.mp (hsingle ▸ List.mem_filter.mpr ⟨hold, hanswered⟩ : old ∈ [pair])]
      by_cases hother : other = side
      · rwa [hother]
      · rw [hedit.observation other fun _ => hother]
        exact Binary64.le_refl _
    · rw [if_neg hanswered]
      exact Binary64.le_refl _

theorem RevisionSnapshot.revise_notRaised {rt : Runtime} {ctx : DecimalContext}
    {content : ContentDigest} {before after : RevisionSnapshot content} {material : ReviewMaterial}
    {revisionId : String} {changes : List ValueRevision}
    (h : before.revise rt ctx content material revisionId changes = .ok after) :
    NotRaised before.material.facts.pairs after.material.facts.pairs ↔
      NotRaised before.material.facts.pairs material.facts.pairs := by
  unfold revise at h
  split_ifs at h
  rw [capture_material h, NotRaised, List.forall₂_map_right_iff]
  rfl

namespace HumanTaskStore
variable {rt : Runtime} {ctx : DecimalContext} {content : ContentDigest}

/-- Each score that the side had bounds the measured or the proposed confidence. -/
def SupplyBounded (observation : FactorObservation) (proposed : PublicValue) : Prop :=
  ∀ mark ∈ observation.marks, observation.confidence.le mark = true ∨
    ∃ score ∈ proposed.confidence, score.le mark = true

theorem correctObservation_score (observation : FactorObservation) (proposed : PublicValue)
    (value : Option NormalizedValue) (bound : Binary64) :
    (correctObservation observation proposed value).confidence.le bound = true ↔
      observation.confidence.le bound = true ∨
        ∃ score ∈ proposed.confidence, score.le bound = true := by
  rw [correctObservation, Binary64.least_le_iff]
  cases proposed.confidence with
  | none => simp
  | some score => simp

theorem supplyEvidence_scores {registry : SourceRegistry} {pair edited : EvidencedPair}
    {side : Side} {observation : FactorObservation} {evidence : List SourceCitation}
    (h : supplyEvidence registry pair side observation evidence = .ok edited) :
    (edited.pair.observation side).evidence ≠ [] ∧
      (edited.pair.observation side).confidence = observation.confidence ∧
      ∀ item ∈ (edited.pair.observation side).evidence,
        item.confidence = observation.confidence := by
  rw [supplyEvidence, guard_ok] at h
  obtain ⟨hguard, h⟩ := h
  cases hreferences : evidence.mapM (suppliedReference registry observation.confidence) with
  | error fault =>
    rw [hreferences] at h
    cases h
  | ok references =>
    rw [hreferences] at h
    cases h
    have hobservation : ((setObservation (setSources pair side evidence) side
        { observation with evidence := references }).pair.observation side) =
          { observation with evidence := references } := by
      cases side <;> rfl
    rw [hobservation]
    have hreferences := mapM_ok.mp hreferences
    refine ⟨fun hnil => hguard (Or.inl ?_), rfl, fun item hitem => ?_⟩
    · change references = [] at hnil
      rw [hnil] at hreferences
      exact List.forall₂_nil_right_iff.mp hreferences
    · obtain ⟨citation, -, hcitation⟩ := forall₂_right hreferences hitem
      unfold suppliedReference at hcitation
      split at hcitation
      · cases hcitation
      · split at hcitation
        · cases hcitation
          rfl
        · cases hcitation

theorem correct_scores {snapshot after : RevisionSnapshot content} {pair : EvidencedPair}
    {reference : FactSideReference} {accepted : AcceptedResponse} {revisionId : String}
    (hlocate : locate snapshot.material reference = .ok pair)
    (h : correct rt ctx snapshot pair reference accepted revisionId = .ok after) :
    ∃ correction proposed, accepted.command.correction = some correction ∧
      correction.proposed = some proposed ∧
      (NotRaised snapshot.material.facts.pairs after.material.facts.pairs ↔
        (accepted.command.action = .supplyEvidence →
          SupplyBounded (pair.pair.observation reference.side) proposed)) := by
  have hsingle := locate_ok hlocate
  have hanswered : FactSideReference.names reference pair = true :=
    (List.mem_filter.mp (hsingle ▸ List.mem_singleton_self pair)).2
  obtain ⟨correction, proposed, value, edited, changes, hcorrection, hproposed, hedited, hrevise⟩ :=
    correct_edits h
  have hedit := correct_edited hanswered hedited
  refine ⟨correction, proposed, hcorrection, hproposed, ?_⟩
  rw [RevisionSnapshot.revise_notRaised hrevise, replaceLocated, notRaised_edit hsingle hedit]
  have hscore : ((correctObservation (pair.pair.observation reference.side) proposed
      value).confidence.le (pair.pair.observation reference.side).confidence) = true :=
    (correctObservation_score ..).mpr (Or.inl (Binary64.le_refl _))
  by_cases hsupply : accepted.command.action = .supplyEvidence
  · simp only [if_pos hsupply] at hedited
    obtain ⟨hsome, hconfidence, hscores⟩ := supplyEvidence_scores hedited
    rw [FactorObservation.effective_le_iff hsome (hconfidence ▸ hscore)]
    simp only [hsupply, true_implies, SupplyBounded]
    refine forall₂_congr fun mark _ => ?_
    rw [← correctObservation_score _ _ value, hconfidence]
    constructor
    · rintro (hle | ⟨item, hitem, hle⟩)
      · exact hle
      · rwa [hscores item hitem] at hle
    · exact Or.inl
  · simp only [if_neg hsupply] at hedited
    cases hedited
    refine iff_of_true ?_ fun h => absurd h hsupply
    have hobservation : ((setObservation pair reference.side (correctObservation
        (pair.pair.observation reference.side) proposed value)).pair.observation reference.side) =
          correctObservation (pair.pair.observation reference.side) proposed value := by
      cases reference.side <;> rfl
    rw [hobservation]
    exact FactorObservation.effective_le_of_evidence rfl hscore

end HumanTaskStore

namespace MaterialSubjectMap
variable {rt : Runtime} {ctx : DecimalContext} {content : ContentDigest}
  {digest : TaskRepository.TaskDigest}

/-- Each score that the side had bounds the measured confidence or a score at a cited place. -/
def PlacesBounded (observation : FactorObservation) (forms : SourceDocument)
    (proposed : PublicValue) : Prop :=
  ∀ mark ∈ observation.marks, observation.confidence.le mark = true ∨
    ∃ ref ∈ proposed.evidence, ∃ score ∈ measuredScores observation forms ref,
      score.1.le mark = true

theorem citedEvidence_scores {observation : FactorObservation} {forms : SourceDocument}
    {ref : SourceCitation} {items : List EvidenceRef}
    (h : citedEvidence observation forms ref = .ok items) :
    items.map EvidenceRef.confidence =
      (measuredScores observation forms ref).map Subtype.val := by
  unfold citedEvidence at h
  split at h
  · cases h
    simp only [List.map_map]
    rfl
  · cases h

theorem measuredScores_ne_nil (observation : FactorObservation) (forms : SourceDocument)
    (ref : SourceCitation) : measuredScores observation forms ref ≠ [] := by
  rw [measuredScores]
  split_ifs with hempty
  · exact List.cons_ne_nil _ _
  · intro hnil
    exact hempty (List.isEmpty_iff.mpr (List.map_eq_nil_iff.mp hnil))

/-- The observation that a correction leaves keeps its score and cites the proposed places. -/
theorem correctedPair_scores {snapshot : RevisionSnapshot content} {pair edited : EvidencedPair}
    {side : Side} {correction : ValueRevision} {original proposed : PublicValue}
    {allowMissingEvidence : Bool}
    (h : correctedPair rt digest snapshot pair side correction original allowMissingEvidence =
      .ok (proposed, edited)) :
    correction.proposed = some proposed ∧
      ∃ purposes, selectedPurposes rt snapshot.material.policy.registry = .ok purposes ∧
        proposed.evidence ≠ [] ∧
        (edited.pair.observation side).confidence = (pair.pair.observation side).confidence ∧
        (edited.pair.observation side).evidence.map EvidenceRef.confidence =
          proposed.evidence.flatMap fun ref =>
            (measuredScores (pair.pair.observation side) purposes.forms ref).map Subtype.val := by
  simp only [correctedPair, SubjectFault.value, guard_ok, bind_ok] at h
  obtain ⟨-, ⟨shown, value⟩, hvalue, -, purposes, hpurposes, _, hcheck, evidence, hevidence, h⟩ := h
  cases pure_ok.mp h
  dsimp only at hcheck hevidence ⊢
  have hproposed : correction.proposed = some shown := by
    unfold proposedValue at hvalue
    split at hvalue
    · cases hvalue
    · next other hother =>
      split at hvalue
      · simp only [SubjectFault.value, guard_ok] at hvalue
        cases hvalue.2.2.2
        exact hother
      · cases hvalue
  have hcited : shown.evidence ≠ [] := by
    intro hnil
    simp only [checkEvidence, SourcePurposes.allows, hnil] at hcheck
    cases hcheck
  have hside : ∀ updated, ((HumanTaskStore.setSources (HumanTaskStore.setObservation pair side
      updated) side shown.evidence).pair.observation side) = updated := by
    intro updated
    cases side <;> rfl
  refine ⟨hproposed, purposes, hpurposes, hcited, by rw [hside], ?_⟩
  rw [hside, List.map_flatten, List.flatMap]
  congr 1
  have hscores := (mapM_ok.mp hevidence).imp fun _ _ hitems => citedEvidence_scores hitems
  rw [← List.forall₂_eq_eq_eq, List.forall₂_map_left_iff, List.forall₂_map_right_iff]
  exact hscores.flip

theorem correct_scores {subjects : MaterialSubjectMap} {snapshot after : RevisionSnapshot content}
    {correction : ValueRevision} {actor : ActorReference} {revisionId : String}
    {allowMissingEvidence : Bool}
    (h : correct rt ctx digest subjects snapshot correction actor revisionId allowMissingEvidence =
      .ok after) : ∃ pair subject purposes proposed,
        subjects.resolve snapshot.material correction.subjectId = .ok (pair, subject) ∧
        selectedPurposes rt snapshot.material.policy.registry = .ok purposes ∧
        correction.proposed = some proposed ∧
        (NotRaised snapshot.material.facts.pairs after.material.facts.pairs ↔
          PlacesBounded (pair.pair.observation subject.side) purposes.forms proposed) := by
  obtain ⟨pair, subject, original, proposed, edited, changes, hresolve, hedited, hrevise⟩ :=
    correct_edits h
  obtain ⟨hproposed, purposes, hpurposes, hcited, hconfidence, hevidence⟩ :=
    correctedPair_scores hedited
  refine ⟨pair, subject, purposes, proposed, hresolve, hpurposes, hproposed, ?_⟩
  obtain ⟨-, -, hsingle⟩ := resolve_ok hresolve
  have hsome : (edited.pair.observation subject.side).evidence ≠ [] := by
    intro hnil
    rw [hnil] at hevidence
    obtain ⟨ref, rest, hrefs⟩ := List.exists_cons_of_ne_nil hcited
    rw [hrefs, List.flatMap_cons] at hevidence
    have hscores := (List.append_eq_nil_iff.mp hevidence.symm).1
    exact measuredScores_ne_nil _ _ _ (List.map_eq_nil_iff.mp hscores)
  have hscore : (edited.pair.observation subject.side).confidence.le
      (pair.pair.observation subject.side).confidence = true := by
    rw [hconfidence]
    exact Binary64.le_refl _
  rw [RevisionSnapshot.revise_notRaised hrevise, replaceSubject,
    notRaised_edit hsingle (correctedPair_edited hresolve hedited),
    FactorObservation.effective_le_iff hsome hscore, PlacesBounded, hconfidence]
  refine forall₂_congr fun mark _ => or_congr_right ?_
  have hmarks : (∃ item ∈ (edited.pair.observation subject.side).evidence,
      item.confidence.le mark = true) ↔
        ∃ score ∈ (edited.pair.observation subject.side).evidence.map EvidenceRef.confidence,
          score.le mark = true := by
    simp only [List.mem_map, exists_exists_and_eq_and]
  rw [hmarks, hevidence]
  simp only [List.mem_flatMap, List.mem_map]
  constructor
  · rintro ⟨score, ⟨ref, href, measured, hmeasured, rfl⟩, hle⟩
    exact ⟨ref, href, measured, hmeasured, hle⟩
  · rintro ⟨ref, href, measured, hmeasured, hle⟩
    exact ⟨measured.1, ⟨ref, href, measured, hmeasured, rfl⟩, hle⟩

end MaterialSubjectMap

/-- When a correction raises the confidence of no side. -/
structure CorrectionsScored (rt : Runtime) (ctx : DecimalContext) (content : ContentDigest)
    (digest : TaskRepository.TaskDigest) : Prop where
  tasks : ∀ (reads : HumanTaskStore.Reads content) (principal : Principal) (taskId : UUID)
    (command : HumanResponse) (revisionId : String) (accepted : AcceptedResponse)
    (next : RevisionSnapshot content),
    HumanTaskStore.prepare rt ctx reads principal taskId command revisionId =
      .ok (.inr (accepted, some next)) →
    (accepted.command.action = .correct ∨ accepted.command.action = .supplyEvidence) →
    ∃ record head reference pair correction proposed,
      HumanTaskStore.authorized reads principal taskId = .ok record ∧
      HumanTaskStore.readSnapshot reads.snapshot record.currentRevision = some head ∧
      next.revision.parent = some head.revision.reference ∧ record.task.side = some reference ∧
      HumanTaskStore.locate head.material reference = .ok pair ∧
      accepted.command.correction = some correction ∧ correction.proposed = some proposed ∧
      (NotRaised head.material.facts.pairs next.material.facts.pairs ↔
        (accepted.command.action = .supplyEvidence →
          HumanTaskStore.SupplyBounded (pair.pair.observation reference.side) proposed))
  subjects : ∀ (subjects : MaterialSubjectMap) (head next : RevisionSnapshot content)
    (correction : ValueRevision) (actor : ActorReference) (revisionId : String)
    (allowMissingEvidence : Bool),
    MaterialSubjectMap.correct rt ctx digest subjects head correction actor revisionId
      allowMissingEvidence = .ok next →
    ∃ pair subject purposes proposed,
      subjects.resolve head.material correction.subjectId = .ok (pair, subject) ∧
      MaterialSubjectMap.selectedPurposes rt head.material.policy.registry = .ok purposes ∧
      correction.proposed = some proposed ∧
      (NotRaised head.material.facts.pairs next.material.facts.pairs ↔
        MaterialSubjectMap.PlacesBounded (pair.pair.observation subject.side) purposes.forms
          proposed)

theorem corrections_scored (rt : Runtime) (ctx : DecimalContext) (content : ContentDigest)
    (digest : TaskRepository.TaskDigest) : CorrectionsScored rt ctx content digest where
  tasks _ _ _ _ _ _ _ h haction := by
    obtain ⟨record, hrecord, hadmission, hnext⟩ := HumanTaskStore.prepare_next h
    obtain ⟨head, reference, pair, hhead, hside, hlocate, -, hcorrect⟩ :=
      HumanTaskStore.nextRevision_located hnext
    have hcorrect := hcorrect (HumanTaskStore.admitResponse_kind hadmission haction)
    obtain ⟨correction, proposed, hcorrection, hproposed, hscores⟩ :=
      HumanTaskStore.correct_scores hlocate hcorrect
    exact ⟨record, head, reference, pair, correction, proposed, hrecord, hhead,
      (HumanTaskStore.correct_frame hlocate hcorrect).parent, hside, hlocate, hcorrection, hproposed,
      hscores⟩
  subjects _ _ _ _ _ _ _ h := MaterialSubjectMap.correct_scores h

/-- The cited place keeps its measured score, so the side counts no more than before. -/
theorem corrections_scored_sample : ∃ head next, correctedSample = .ok (head, next) ∧
    (next.material.facts.pairs.map fun pair => pair.pair.target.effective) = [one64] ∧
    ∃ pair subject purposes proposed,
      sampleSubjects.resolve head.material "subject" = .ok (pair, subject) ∧
      MaterialSubjectMap.selectedPurposes sampleRuntime head.material.policy.registry =
        .ok purposes ∧ sampleCorrection.proposed = some proposed ∧
      (NotRaised head.material.facts.pairs next.material.facts.pairs ↔
        MaterialSubjectMap.PlacesBounded (pair.pair.observation subject.side) purposes.forms
          proposed) := by
  have hread : correctedSample.map (fun both => both.2.material.facts.pairs.map
      fun pair => pair.pair.target.effective) = .ok [one64] := by decide +kernel
  obtain ⟨both, hcorrected, heffective⟩ := map_ok.mp hread
  have scored := corrections_scored sampleRuntime .default versionContent sampleTaskDigest
  exact ⟨both.1, both.2, hcorrected, heffective,
    scored.subjects _ _ _ _ _ _ _ (correctedSample_ok hcorrected)⟩

namespace HumanTaskStore

theorem zero64_unit : zero64.unit = true := by decide

def doubtfulPair : EvidencedPair :=
  { samplePair with pair := ⟨"factor", { sampleObservation with
      evidence := [{ sampleEvidence with confidence := zero64, confidenceUnit := zero64_unit }] },
    sampleObservation⟩ }

def doubtfulMaterial : ReviewMaterial :=
  { certainMaterial with facts := { certainMaterial.facts with pairs := [doubtfulPair] } }

def doubtfulSnapshot : RevisionSnapshot versionDigest where
  material := doubtfulMaterial
  revision := sampleBase (MemoryJobStore.sampleRevision 0) sampleRevision_case
  pinned := by decide

def supplyTask : HumanTask where
  taskId := ⟨40⟩
  run := { runId := ⟨2⟩, revision := MemoryJobStore.sampleRevision 0 }
  version := 1
  kind := .evidence
  requiredPermission := .correct
  side := some (sampleSide MemoryJobStore.sampleDigest)
  question := "Supply the evidence"
  findingIds := ["finding-1"]
  allowedResponses := [.supplyEvidence, .reject]
  positive := numbered_from_one
  permitted := rfl
  purposeful := by decide
  publication := by decide
  exactSide := by decide
  asked := by decide
  distinct := by decide

def suppliedValue : PublicValue where
  state := .present
  value := some (.normalized ⟨.category, .text "yes", none⟩)
  rawText := "yes"
  evidence := [sampleCitation "forms" "yes"]
  stateValue := by decide
  confidenceUnit := by decide

def suppliedRevision : ValueRevision where
  subjectId := sideSubjectId (sampleSide MemoryJobStore.sampleDigest)
  original := suppliedValue
  proposed := some suppliedValue
  named := by decide
  correctionActor := uncorrected_actor
  humanActor := uncorrected_human

theorem supplied_unasserted : ∀ c ∈ some suppliedRevision,
    c.corrected = none ∧ c.correctedBy = none ∧ c.proposed ≠ none := by
  intro c hc
  cases hc
  exact ⟨rfl, rfl, Option.some_ne_none _⟩

def supplyCommand : HumanResponse where
  taskId := ⟨40⟩
  expectedVersion := 1
  revision := MemoryJobStore.sampleRevision 0
  sideDigest := some MemoryJobStore.sampleDigest
  idempotencyKey := ⟨"answer-1", sampleKey_text⟩
  action := .supplyEvidence
  correction := some suppliedRevision
  positive := numbered_from_one
  payload := by decide
  unasserted := supplied_unasserted

def corrector : Principal :=
  { MemoryJobStore.samplePrincipal with permissions := [.review, .correct] }

def askedForEvidence : Store versionDigest :=
  run (fun _ => MemoryJobStore.sampleDigest) .standard {} [.job MemoryJobStore.sampleCreate,
    .job MemoryJobStore.sampleClaim,
    .job (.finish MemoryJobStore.sampleAttempt .needsHuman 30 none [⟨40⟩] none),
    .seed ⟨1⟩ "reviewer" doubtfulSnapshot [supplyTask]]

def supplied : Except Fault
    (ResponseReceipt ⊕ (AcceptedResponse × Option (RevisionSnapshot versionDigest))) :=
  prepare sampleRuntime .default
    ⟨askedForEvidence, askedForEvidence, askedForEvidence, askedForEvidence⟩ corrector ⟨40⟩
    supplyCommand "revision-2"

def suppliedTargets : List EvidencedPair :=
  match supplied with
  | .ok (.inr (_, some next)) => next.material.facts.pairs
  | _ => []

/-- A side that counted as nothing counts in full once its evidence is supplied again. -/
theorem supplied_raises : doubtfulPair.pair.target.effective = zero64 ∧
    ∃ accepted next, supplied = .ok (.inr (accepted, some next)) ∧
      accepted.command.action = .supplyEvidence ∧
      readSnapshot askedForEvidence (MemoryJobStore.sampleRevision 0) = some doubtfulSnapshot ∧
      (next.material.facts.pairs.map fun pair => pair.pair.target.effective) = [one64] ∧
      ¬ NotRaised doubtfulSnapshot.material.facts.pairs next.material.facts.pairs := by
  have heffective : doubtfulPair.pair.target.effective = zero64 := by decide
  have hreturns : (suppliedTargets.map fun pair => pair.pair.target.effective) = [one64] := by
    decide +kernel
  refine ⟨heffective, ?_⟩
  rw [suppliedTargets] at hreturns
  split at hreturns
  · next accepted next hsupplied =>
    have haccepted : accepted = { command := supplyCommand, actor := corrector.actor } := by
      obtain ⟨record, -, hadmission, -⟩ := prepare_next hsupplied
      exact (admitResponse_ok hadmission).1
    refine ⟨accepted, next, hsupplied, by rw [haccepted]; rfl, rfl, hreturns, fun hkept => ?_⟩
    obtain ⟨pair, rest, hside, -, hpairs⟩ := List.forall₂_cons_left_iff.mp hkept
    have hle := hside .target
    rw [hpairs] at hreturns
    have hone : pair.pair.target.effective = one64 := (List.cons.inj hreturns).1
    change pair.pair.target.effective.le doubtfulPair.pair.target.effective = true at hle
    rw [hone, heffective] at hle
    exact absurd hle (by decide)
  · cases hreturns

end HumanTaskStore
end AppraisalReview
