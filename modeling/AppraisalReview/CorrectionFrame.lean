import AppraisalReview.MaterialSubjects

set_option autoImplicit false

/-!
# A correction touches only its subject

What a child revision that was made by a correction has in common with its
parent: everything but one observation with its sources, the version, and the
labels that a revision clears.
-/
namespace AppraisalReview
open Raising

@[simp] theorem EvidencedPair.setReliability_context (pair : EvidencedPair) (side : Side)
    (reliability : Reliability) : (pair.setReliability side reliability).context = pair.context := by
  cases side <;> rfl

@[simp] theorem EvidencedPair.setReliability_pair (pair : EvidencedPair) (side : Side)
    (reliability : Reliability) : (pair.setReliability side reliability).pair = pair.pair := by
  cases side <;> rfl

@[simp] theorem EvidencedPair.setReliability_sources (pair : EvidencedPair) (side : Side)
    (reliability : Reliability) : (pair.setReliability side reliability).sources = pair.sources := by
  cases side <;> rfl

theorem EvidencedPair.setReliability_reliability (pair : EvidencedPair) (side other : Side)
    (reliability : Reliability) : (pair.setReliability side reliability).reliability other =
      if other = side then reliability else pair.reliability other := by
  cases side <;> cases other <;> rfl

def Reliability.unlabelled (reliability : Reliability) : Reliability :=
  { reliability with method := .modelProposed, confirmation := none }

theorem confirmationDigest_congr {rt : Runtime} {a b : EvidencedPair} {side : Side}
    (hcontext : a.context = b.context) (hfactor : a.pair.factorId = b.pair.factorId)
    (hobservation : a.pair.observation side = b.pair.observation side)
    (hsources : a.sources side = b.sources side)
    (hreliability : (a.reliability side).unlabelled = (b.reliability side).unlabelled) :
    confirmationDigest rt a side = confirmationDigest rt b side := by
  simp only [Reliability.unlabelled, Reliability.mk.injEq] at hreliability
  obtain ⟨hkind, hprovenance, hproducer, -, hconfidence, -, hselection, hunresolved⟩ := hreliability
  have hcovered : a.covered side = b.covered side := by
    simp only [EvidencedPair.covered, hcontext, hfactor, hobservation, hsources, hkind, hprovenance,
      hproducer, hconfidence, hselection, hunresolved]
  rw [confirmationDigest, confirmationDigest, hcovered]

/-- The pair as `revise` leaves it, against its own former state. -/
structure Cleared (rt : Runtime) (old : Option EvidencedPair) (pair cleared : EvidencedPair) :
    Prop where
  context : cleared.context = pair.context
  content : cleared.pair = pair.pair
  sources : cleared.sources = pair.sources
  unlabelled : ∀ side, (cleared.reliability side).unlabelled = (pair.reliability side).unlabelled
  unconfirmed : ∀ side, (cleared.reliability side).confirmation = none
  method : ∀ side, (cleared.reliability side).method = .modelProposed ∨
    (cleared.reliability side).method = (pair.reliability side).method ∧
      ∃ former, old = some former ∧ retainsNative rt former pair side = true

theorem clearConfirmation_reliability (rt : Runtime) (old : Option EvidencedPair)
    (pair : EvidencedPair) (side other : Side) :
    (clearConfirmation rt old pair side).reliability other =
      if other = side then { pair.reliability side with
        method := if old.any fun former => retainsNative rt former pair side then
          (pair.reliability side).method else .modelProposed
        confirmation := none }
      else pair.reliability other :=
  EvidencedPair.setReliability_reliability ..

theorem retainsNative_clear (rt : Runtime) (old : Option EvidencedPair) (former pair : EvidencedPair) :
    retainsNative rt former (clearConfirmation rt old pair .target) .comparable =
      retainsNative rt former pair .comparable := by
  have hreliability : (clearConfirmation rt old pair .target).reliability .comparable =
      pair.reliability .comparable := rfl
  have hdigest : confirmationDigest rt (clearConfirmation rt old pair .target) .comparable =
      confirmationDigest rt pair .comparable :=
    confirmationDigest_congr rfl rfl rfl rfl rfl
  rw [retainsNative, retainsNative, hreliability, hdigest]

theorem clearConfirmation_method (rt : Runtime) (old : Option EvidencedPair) (pair : EvidencedPair)
    (side : Side) : ((clearConfirmation rt old pair side).reliability side).method = .modelProposed ∨
      ((clearConfirmation rt old pair side).reliability side).method =
        (pair.reliability side).method ∧
      ∃ former, old = some former ∧ retainsNative rt former pair side = true := by
  rw [clearConfirmation_reliability, if_pos rfl]
  by_cases hold : (old.any fun former => retainsNative rt former pair side) = true
  · exact Or.inr ⟨if_pos hold, (Option.any_eq_true _ _).mp hold⟩
  · exact Or.inl (if_neg hold)

theorem cleared (rt : Runtime) (old : Option EvidencedPair) (pair : EvidencedPair) :
    Cleared rt old pair
      (clearConfirmation rt old (clearConfirmation rt old pair .target) .comparable) where
  context := rfl
  content := rfl
  sources := by
    rw [clearConfirmation, EvidencedPair.setReliability_sources, clearConfirmation,
      EvidencedPair.setReliability_sources]
  unlabelled side := by cases side <;> rfl
  unconfirmed side := by cases side <;> rfl
  method side := by
    cases side with
    | target =>
      -- The comparable side is cleared last and leaves this one alone.
      rw [clearConfirmation_reliability, if_neg (by decide)]
      exact clearConfirmation_method rt old pair .target
    | comparable =>
      rcases clearConfirmation_method rt old (clearConfirmation rt old pair .target) .comparable with
        hproposed | ⟨hmethod, former, hformer, hretains⟩
      · exact Or.inl hproposed
      · refine Or.inr ⟨hmethod, former, hformer, ?_⟩
        rwa [retainsNative_clear] at hretains

/-- One observation and its sources, on the answered side of the answered pair. -/
structure Edited (answered : EvidencedPair → Bool) (side : Side) (old new : EvidencedPair) :
    Prop where
  context : new.context = old.context
  factor : new.pair.factorId = old.pair.factorId
  observation : ∀ other, (answered old = true → other ≠ side) →
    new.pair.observation other = old.pair.observation other
  sources : ∀ other, (answered old = true → other ≠ side) → new.sources other = old.sources other
  reliability : new.reliability = old.reliability

structure PairFrame (rt : Runtime) (answered : EvidencedPair → Bool) (side : Side)
    (old new : EvidencedPair) : Prop where
  context : new.context = old.context
  factor : new.pair.factorId = old.pair.factorId
  observation : ∀ other, (answered old = true → other ≠ side) →
    new.pair.observation other = old.pair.observation other
  sources : ∀ other, (answered old = true → other ≠ side) → new.sources other = old.sources other
  unlabelled : ∀ other, (new.reliability other).unlabelled = (old.reliability other).unlabelled
  unconfirmed : ∀ other, (new.reliability other).confirmation = none
  native : ∀ other, (new.reliability other).method = .nativeNumeric →
    (old.reliability other).method = .nativeNumeric ∧
      confirmationDigest rt new other = confirmationDigest rt old other
  unreviewed : ∀ other, (new.reliability other).method ≠ .reviewerConfirmed

theorem Edited.refl (answered : EvidencedPair → Bool) (side : Side) (pair : EvidencedPair) :
    Edited answered side pair pair := ⟨rfl, rfl, fun _ _ => rfl, fun _ _ => rfl, rfl⟩

/-- An edit followed by the clearing of labels. The former state of an answered
pair is the one its key finds; for the others the edit is the identity. -/
theorem Edited.frame {rt : Runtime} {answered : EvidencedPair → Bool} {side : Side}
    {found : Option EvidencedPair} {old mid new : EvidencedPair} (hedit : Edited answered side old mid)
    (hfound : answered old = true → found = some old) (hclear : Cleared rt found mid new) :
    PairFrame rt answered side old new := by
  have hunlabelled : ∀ other,
      (new.reliability other).unlabelled = (old.reliability other).unlabelled :=
    fun other => (hclear.unlabelled other).trans (by rw [hedit.reliability])
  have hdigest : ∀ other, confirmationDigest rt new other = confirmationDigest rt mid other :=
    fun other => confirmationDigest_congr hclear.context (by rw [hclear.content])
      (by rw [hclear.content]) (by rw [hclear.sources]) (hclear.unlabelled other)
  constructor
  case context => rw [hclear.context, hedit.context]
  case factor => rw [hclear.content, hedit.factor]
  case observation =>
    intro other h
    rw [hclear.content, hedit.observation other h]
  case sources =>
    intro other h
    rw [hclear.sources, hedit.sources other h]
  case unlabelled => exact hunlabelled
  case unconfirmed => exact hclear.unconfirmed
  case native =>
    intro other hnative
    rcases hclear.method other with hproposed | ⟨hmethod, former, hformer, hretains⟩
    · cases hproposed.symm.trans hnative
    · have hold : (old.reliability other).method = .nativeNumeric := by
        rw [← hedit.reliability, ← hmethod, hnative]
      refine ⟨hold, (hdigest other).trans ?_⟩
      by_cases hanswered : answered old = true
      · cases hformer.symm.trans (hfound hanswered)
        simp only [retainsNative, Bool.and_eq_true, decide_eq_true_eq] at hretains
        exact hretains.2.symm
      · have hsame : answered old = true → other ≠ side := fun h => absurd h hanswered
        exact confirmationDigest_congr hedit.context hedit.factor (hedit.observation other hsame)
          (hedit.sources other hsame) (by rw [hedit.reliability])
  case unreviewed =>
    intro other hreviewed
    rcases hclear.method other with hproposed | ⟨hmethod, former, -, hretains⟩
    · cases hproposed.symm.trans hreviewed
    · simp only [retainsNative, Bool.and_eq_true, decide_eq_true_eq] at hretains
      cases hretains.1.1.1.2.symm.trans (hmethod.symm.trans hreviewed)

theorem RevisionSnapshot.capture_material {rt : Runtime} {ctx : DecimalContext}
    {content : ContentDigest} {material : ReviewMaterial} {revisionId : String}
    {parent : Option RevisionReference} {changes : List ValueRevision}
    {snapshot : RevisionSnapshot content}
    (h : RevisionSnapshot.capture rt ctx content material revisionId parent changes =
      .ok snapshot) : snapshot.material = material := by
  unfold capture at h
  split_ifs at h
  split at h
  · cases h
  · cases h
    rfl

/-- A child whose material is that of its parent but for the answered side. -/
structure CorrectionFrame (rt : Runtime) {content : ContentDigest} (answered : EvidencedPair → Bool)
    (side : Side) (before after : RevisionSnapshot content) (revisionId : String) : Prop where
  single : ∃ pair, before.material.facts.pairs.filter answered = [pair]
  policy : after.material.policy = { before.material.policy with
    identity := { before.material.policy.identity with version := revisionId } }
  identity : after.material.facts.identity =
    { before.material.facts.identity with version := revisionId }
  observed : after.material.facts.observed = before.material.facts.observed
  unresolved : after.material.facts.unresolved = before.material.facts.unresolved
  pairs : List.Forall₂ (PairFrame rt answered side) before.material.facts.pairs
    after.material.facts.pairs
  parent : after.revision.parent = some before.revision.reference
  digest : after.revision.reference.materialDigest ≠ before.revision.reference.materialDigest

theorem pairOfKey_single {pairs : List EvidencedPair} {pair : EvidencedPair}
    {answered : EvidencedPair → Bool} (hsingle : pairs.filter answered = [pair])
    (hkey : ∀ other ∈ pairs, answered other = true ↔
      other.context.key = pair.context.key ∧ other.pair.factorId = pair.pair.factorId) :
    ∀ old ∈ pairs, answered old = true →
      pairOfKey pairs (old.context.key, old.pair.factorId) = some old := by
  intro old hold hanswered
  have only : ∀ other ∈ pairs, answered other = true → other = pair := by
    intro other hmem h
    exact List.mem_singleton.mp (hsingle ▸ List.mem_filter.mpr ⟨hmem, h⟩)
  rw [pairOfKey]
  cases hfind : pairs.reverse.find? fun other =>
      (other.context.key, other.pair.factorId) = (old.context.key, old.pair.factorId) with
  | none =>
    have hnone := List.find?_eq_none.mp hfind old (List.mem_reverse.mpr hold)
    exact absurd (decide_eq_true rfl) hnone
  | some found =>
    have hmem := List.mem_reverse.mp (List.mem_of_find?_eq_some hfind)
    have hsame := List.find?_some hfind
    simp only [decide_eq_true_eq, Prod.mk.injEq] at hsame
    have hfound : answered found = true := by
      rw [hkey found hmem, hsame.1, hsame.2, ← hkey old hold]
      exact hanswered
    rw [only found hmem hfound, only old hold hanswered]

theorem forall₂_map_right {α β γ : Type} {R : α → β → Prop} {S : α → γ → Prop} {f : β → γ}
    {l : List α} {m : List β} (h : List.Forall₂ R l m) (hstep : ∀ a ∈ l, ∀ b, R a b → S a (f b)) :
    List.Forall₂ S l (m.map f) := by
  induction h with
  | nil => exact .nil
  | @cons a b rest others hab _ ih =>
    exact .cons (hstep a List.mem_cons_self b hab)
      (ih fun x hx y hxy => hstep x (List.mem_cons_of_mem _ hx) y hxy)

theorem RevisionSnapshot.revise_frame {rt : Runtime} {ctx : DecimalContext}
    {content : ContentDigest} {before after : RevisionSnapshot content} {pairs : List EvidencedPair}
    {revisionId : String} {changes : List ValueRevision} {answered : EvidencedPair → Bool}
    {side : Side} {pair : EvidencedPair}
    (hsingle : before.material.facts.pairs.filter answered = [pair])
    (hkey : ∀ other ∈ before.material.facts.pairs, answered other = true ↔
      other.context.key = pair.context.key ∧ other.pair.factorId = pair.pair.factorId)
    (hpairs : List.Forall₂ (Edited answered side) before.material.facts.pairs pairs)
    (h : before.revise rt ctx content { before.material with
      facts := { before.material.facts with pairs := pairs } } revisionId changes = .ok after) :
    CorrectionFrame rt answered side before after revisionId := by
  have hparent := RevisionSnapshot.revise_ok h
  unfold revise at h
  split_ifs at h
  have hmaterial := capture_material h
  constructor
  case single => exact ⟨pair, hsingle⟩
  case policy => rw [hmaterial]; rfl
  case identity => rw [hmaterial]; rfl
  case observed => rw [hmaterial]; rfl
  case unresolved => rw [hmaterial]; rfl
  case pairs =>
    rw [hmaterial]
    refine forall₂_map_right hpairs fun old hold mid hedit => ?_
    refine hedit.frame (fun hanswered => ?_) (cleared rt _ mid)
    rw [hedit.context, hedit.factor]
    exact pairOfKey_single hsingle hkey old hold hanswered
  case parent => exact hparent
  case digest => exact fun heq => (after.revision.childVersion _ hparent).2.2 heq.symm

theorem edited_pairs {pairs : List EvidencedPair} {answered : EvidencedPair → Bool} {side : Side}
    {pair edited : EvidencedPair} (hsingle : pairs.filter answered = [pair])
    (hedit : Edited answered side pair edited) :
    List.Forall₂ (Edited answered side) pairs
      (pairs.map fun old => if answered old then edited else old) := by
  have hsame : List.Forall₂ (fun a b => a = b) pairs pairs := List.forall₂_same.mpr fun _ _ => rfl
  refine forall₂_map_right hsame ?_
  rintro old hold _ rfl
  by_cases hanswered : answered old = true
  · rw [if_pos hanswered,
      List.mem_singleton.mp (hsingle ▸ List.mem_filter.mpr ⟨hold, hanswered⟩ : old ∈ [pair])]
    exact hedit
  · rw [if_neg hanswered]
    exact Edited.refl answered side old

theorem edited_setObservation {answered : EvidencedPair → Bool} {side : Side} {pair : EvidencedPair}
    (hanswered : answered pair = true) (observation : FactorObservation) :
    Edited answered side pair (HumanTaskStore.setObservation pair side observation) := by
  constructor
  case context => cases side <;> rfl
  case factor => cases side <;> rfl
  case observation =>
    intro other h
    have := h hanswered
    cases side <;> cases other <;> first | rfl | exact absurd rfl this
  case sources => cases side <;> exact fun other _ => rfl
  case reliability => cases side <;> rfl

theorem edited_setSources {answered : EvidencedPair → Bool} {side : Side} {pair : EvidencedPair}
    (hanswered : answered pair = true) (sources : List SourceCitation) :
    Edited answered side pair (HumanTaskStore.setSources pair side sources) := by
  constructor
  case context => cases side <;> rfl
  case factor => cases side <;> rfl
  case observation => cases side <;> exact fun other _ => rfl
  case sources =>
    intro other h
    have := h hanswered
    cases side <;> cases other <;> first | rfl | exact absurd rfl this
  case reliability => cases side <;> rfl

theorem Edited.trans {answered : EvidencedPair → Bool} {side : Side} {a b c : EvidencedPair}
    (hab : Edited answered side a b) (hbc : Edited answered side b c)
    (hkeep : answered b = answered a) : Edited answered side a c where
  context := hbc.context.trans hab.context
  factor := hbc.factor.trans hab.factor
  observation other h := (hbc.observation other (hkeep ▸ h)).trans (hab.observation other h)
  sources other h := (hbc.sources other (hkeep ▸ h)).trans (hab.sources other h)
  reliability := hbc.reliability.trans hab.reliability

namespace HumanTaskStore
variable {rt : Runtime} {ctx : DecimalContext} {content : ContentDigest}

theorem names_iff {reference : FactSideReference} {pair : EvidencedPair} :
    FactSideReference.names reference pair = true ↔
      pair.context.key = reference.context.key ∧ pair.pair.factorId = reference.factorId := by
  simp [FactSideReference.names]

theorem locate_ok {material : ReviewMaterial} {reference : FactSideReference} {pair : EvidencedPair}
    (h : locate material reference = .ok pair) :
    material.facts.pairs.filter (FactSideReference.names reference) = [pair] := by
  unfold locate at h
  split at h
  · next other hfilter =>
    cases h
    exact hfilter
  · cases h

theorem supplyEvidence_edits {registry : SourceRegistry} {answered : EvidencedPair → Bool}
    {pair edited : EvidencedPair} {side : Side} {observation : FactorObservation}
    {evidence : List SourceCitation} (hanswered : answered pair = true)
    (hkeep : ∀ sources, answered (setSources pair side sources) = true)
    (h : supplyEvidence registry pair side observation evidence = .ok edited) :
    Edited answered side pair edited := by
  rw [supplyEvidence, guard_ok] at h
  cases hreferences : evidence.mapM (suppliedReference registry observation.confidence) with
  | error fault =>
    rw [hreferences] at h
    cases h.2
  | ok references =>
    rw [hreferences] at h
    cases h.2
    exact (edited_setSources hanswered evidence).trans
      (edited_setObservation (hkeep evidence) _) ((hkeep evidence).trans hanswered.symm)

/-- The observation that a correction leaves, before the revision clears the labels. -/
theorem correct_edits {snapshot after : RevisionSnapshot content} {pair : EvidencedPair}
    {reference : FactSideReference} {accepted : AcceptedResponse} {revisionId : String}
    (h : correct rt ctx snapshot pair reference accepted revisionId = .ok after) :
    ∃ correction proposed value edited changes, accepted.command.correction = some correction ∧
      correction.proposed = some proposed ∧
      (if accepted.command.action = .supplyEvidence then
          supplyEvidence snapshot.material.policy.registry pair reference.side
            (correctObservation (pair.pair.observation reference.side) proposed value)
            proposed.evidence
        else .ok (setObservation pair reference.side
          (correctObservation (pair.pair.observation reference.side) proposed value))) =
        .ok edited ∧
      snapshot.revise rt ctx content (replaceLocated snapshot.material reference edited)
        revisionId changes = .ok after := by
  unfold correct at h
  cases hcorrection : accepted.command.correction with
  | none =>
    rw [hcorrection] at h
    cases h
  | some correction =>
    cases hproposed : correction.proposed with
    | none =>
      simp only [hcorrection, hproposed] at h
      cases h
    | some proposed =>
      simp only [hcorrection, hproposed, guard_ok, bind_ok] at h
      obtain ⟨-, value, -, original, -, h⟩ := h
      refine ⟨correction, proposed, value, ?_⟩
      by_cases hsupply : accepted.command.action = .supplyEvidence
      · simp only [if_pos hsupply, bind_ok] at h ⊢
        obtain ⟨edited, hedited, corrected, -, hrevise⟩ := h
        exact ⟨edited, _, trivial, hproposed, hedited, hrevise⟩
      · simp only [if_neg hsupply, bind_ok] at h ⊢
        obtain ⟨edited, hedited, corrected, -, hrevise⟩ := h
        exact ⟨edited, _, trivial, hproposed, hedited, hrevise⟩

theorem correct_edited {registry : SourceRegistry} {pair edited : EvidencedPair}
    {reference : FactSideReference} {action : ResponseAction} {observation : FactorObservation}
    {evidence : List SourceCitation} (hanswered : FactSideReference.names reference pair = true)
    (h : (if action = .supplyEvidence then
        supplyEvidence registry pair reference.side observation evidence
      else .ok (setObservation pair reference.side observation)) = .ok edited) :
    Edited (FactSideReference.names reference) reference.side pair edited := by
  by_cases hsupply : action = .supplyEvidence
  · rw [if_pos hsupply] at h
    refine supplyEvidence_edits hanswered (fun sources => ?_) h
    rw [← hanswered]
    cases reference.side <;> rfl
  · rw [if_neg hsupply] at h
    cases h
    exact edited_setObservation hanswered _

theorem correct_frame {snapshot after : RevisionSnapshot content} {pair : EvidencedPair}
    {reference : FactSideReference} {accepted : AcceptedResponse} {revisionId : String}
    (hlocate : locate snapshot.material reference = .ok pair)
    (h : correct rt ctx snapshot pair reference accepted revisionId = .ok after) :
    CorrectionFrame rt (FactSideReference.names reference) reference.side snapshot after
      revisionId := by
  have hsingle := locate_ok hlocate
  have hanswered : FactSideReference.names reference pair = true :=
    (List.mem_filter.mp (hsingle ▸ List.mem_singleton_self pair)).2
  obtain ⟨hcontext, hfactor⟩ := names_iff.mp hanswered
  obtain ⟨correction, proposed, value, edited, changes, -, -, hedited, hrevise⟩ := correct_edits h
  exact RevisionSnapshot.revise_frame hsingle (fun other _ => by rw [names_iff, hcontext, hfactor])
    (edited_pairs hsingle (correct_edited hanswered hedited)) hrevise

theorem readSnapshot_reference {s : Store content} {revision : RevisionReference}
    {snapshot : RevisionSnapshot content} (h : readSnapshot s revision = some snapshot) :
    snapshot.revision.reference = revision := by
  obtain ⟨-, hreference⟩ := Option.filter_eq_some_iff.mp h
  exact of_decide_eq_true hreference

theorem admitResponse_kind {task : HumanTask} {command : HumanResponse} {principal : Principal}
    {current : RevisionReference} {accepted : AcceptedResponse}
    (h : admitResponse task command principal current = .ok accepted)
    (haction : accepted.command.action = .correct ∨ accepted.command.action = .supplyEvidence) :
    task.kind ≠ .fact := by
  intro hkind
  unfold admitResponse at h
  split at h
  · cases h
  · simp only [guard_ok, not_not] at h
    obtain ⟨-, -, -, hallowed, h⟩ := h
    cases h
    have hpurpose := task.purposeful _ hallowed
    rw [hkind] at hpurpose
    rcases haction with hcorrect | hsupply
    · rw [hcorrect] at hpurpose
      exact absurd hpurpose (by decide)
    · rw [hsupply] at hpurpose
      exact absurd hpurpose (by decide)

/-- What is admitted names the run's own revision and the digest of the task's side. -/
theorem admitResponse_current {task : HumanTask} {command : HumanResponse} {principal : Principal}
    {current : RevisionReference} {accepted : AcceptedResponse}
    (h : admitResponse task command principal current = .ok accepted) :
    current = task.run.revision ∧
      command.sideDigest = task.side.map FactSideReference.inputDigest := by
  unfold admitResponse at h
  split at h
  · cases h
  · simp only [guard_ok, not_or, not_not] at h
    obtain ⟨-, -, ⟨-, -, -, hrun, -, hdigest⟩, -⟩ := h
    exact ⟨hrun.symm, hdigest⟩

theorem nextRevision_located {s : Store content} {record : TaskRecord} {accepted : AcceptedResponse}
    {revisionId : String} {next : RevisionSnapshot content}
    (h : nextRevision rt ctx s record accepted revisionId = .ok (some next)) :
    ∃ snapshot reference pair, readSnapshot s record.currentRevision = some snapshot ∧
      record.task.side = some reference ∧ locate snapshot.material reference = .ok pair ∧
      (record.task.kind = .fact →
        confirm rt ctx snapshot pair reference accepted revisionId = .ok next) ∧
      (record.task.kind ≠ .fact →
        correct rt ctx snapshot pair reference accepted revisionId = .ok next) := by
  rw [nextRevision] at h
  by_cases hreject : accepted.command.action = .reject
  · rw [if_pos hreject] at h
    cases h
  · rw [if_neg hreject, guard_ok] at h
    obtain ⟨-, h⟩ := h
    cases hsnapshot : readSnapshot s record.currentRevision with
    | none =>
      rw [hsnapshot] at h
      cases h
    | some snapshot =>
      cases hside : record.task.side with
      | none =>
        simp only [hsnapshot, hside] at h
        cases h
      | some reference =>
        simp only [hsnapshot, hside] at h
        cases hlocate : locate snapshot.material reference with
        | error fault =>
          rw [hlocate] at h
          cases h
        | ok pair =>
          refine ⟨snapshot, reference, pair, rfl, rfl, hlocate, fun hfact => ?_, fun hkind => ?_⟩
          · simpa only [hlocate, if_pos hfact, map_ok, Option.some.injEq, exists_eq_right] using h
          · simpa only [hlocate, if_neg hkind, map_ok, Option.some.injEq, exists_eq_right] using h

theorem prepare_next {reads : Reads content} {principal : Principal} {taskId : UUID}
    {command : HumanResponse} {revisionId : String} {accepted : AcceptedResponse}
    {next : Option (RevisionSnapshot content)}
    (h : prepare rt ctx reads principal taskId command revisionId = .ok (.inr (accepted, next))) :
    ∃ record, authorized reads principal taskId = .ok record ∧
      admitResponse record.task command principal record.currentRevision = .ok accepted ∧
      nextRevision rt ctx reads.snapshot record accepted revisionId = .ok next := by
  rw [prepare, guard_ok] at h
  obtain ⟨-, h⟩ := h
  cases hrecord : authorized reads principal taskId with
  | error fault =>
    rw [hrecord] at h
    cases h
  | ok record =>
    simp only [hrecord] at h
    split at h
    · split_ifs at h
      cases h
    · cases hadmission : admitResponse record.task command principal record.currentRevision with
      | error fault =>
        rw [hadmission] at h
        cases h
      | ok admitted =>
        cases hnext : nextRevision rt ctx reads.snapshot record admitted revisionId with
        | error fault => simp [hadmission, hnext, Except.map] at h
        | ok derived =>
          simp only [hadmission, hnext, Except.map] at h
          cases h
          exact ⟨record, rfl, hadmission, hnext⟩

/-- The record of the task, the snapshot of its revision and the side that it asks about. -/
theorem prepare_frame {reads : Reads content} {principal : Principal} {taskId : UUID}
    {command : HumanResponse} {revisionId : String} {accepted : AcceptedResponse}
    {next : RevisionSnapshot content}
    (h : prepare rt ctx reads principal taskId command revisionId = .ok (.inr (accepted, some next)))
    (haction : accepted.command.action = .correct ∨ accepted.command.action = .supplyEvidence) :
    ∃ record snapshot reference, authorized reads principal taskId = .ok record ∧
      readSnapshot reads.snapshot record.currentRevision = some snapshot ∧
      record.task.side = some reference ∧
      CorrectionFrame rt (FactSideReference.names reference) reference.side snapshot next
        revisionId := by
  obtain ⟨record, hrecord, hadmission, hnext⟩ := prepare_next h
  obtain ⟨snapshot, reference, pair, hsnapshot, hside, hlocate, -, hcorrect⟩ :=
    nextRevision_located hnext
  exact ⟨record, snapshot, reference, hrecord, hsnapshot, hside,
    correct_frame hlocate (hcorrect (admitResponse_kind hadmission haction))⟩

end HumanTaskStore

namespace MaterialSubjectMap
variable {rt : Runtime} {ctx : DecimalContext} {content : ContentDigest}
  {digest : TaskRepository.TaskDigest}

theorem resolve_ok {subjects : MaterialSubjectMap} {material : ReviewMaterial} {subjectId : String}
    {pair : EvidencedPair} {subject : MaterialSubject}
    (h : subjects.resolve material subjectId = .ok (pair, subject)) :
    subject ∈ subjects.bindings ∧ subject.subjectId = subjectId ∧
      material.facts.pairs.filter subject.names = [pair] := by
  unfold resolve at h
  cases hfind : subjects.bindings.find? fun binding => binding.subjectId = subjectId with
  | none =>
    rw [hfind] at h
    cases h
  | some binding =>
    simp only [hfind] at h
    split at h
    · next other hfilter =>
      cases h
      have hid := List.find?_some hfind
      exact ⟨List.mem_of_find?_eq_some hfind, of_decide_eq_true hid, hfilter⟩
    · cases h

theorem names_iff {subject : MaterialSubject} {pair : EvidencedPair} :
    subject.names pair = true ↔
      pair.context = subject.context ∧ pair.pair.factorId = subject.factorId := by
  simp [MaterialSubject.names]

theorem correctedPair_edits {snapshot : RevisionSnapshot content} {pair edited : EvidencedPair}
    {side : Side} {correction : ValueRevision} {original proposed : PublicValue}
    {allowMissingEvidence : Bool} {answered : EvidencedPair → Bool}
    (hanswered : answered pair = true)
    (hkeep : ∀ observation, answered (HumanTaskStore.setObservation pair side observation) = true)
    (h : correctedPair rt digest snapshot pair side correction original allowMissingEvidence =
      .ok (proposed, edited)) : Edited answered side pair edited := by
  simp only [correctedPair, SubjectFault.value, guard_ok, bind_ok] at h
  obtain ⟨-, ⟨shown, value⟩, -, -, purposes, -, -, -, evidence, -, h⟩ := h
  cases pure_ok.mp h
  exact (edited_setObservation hanswered _).trans (edited_setSources (hkeep _) _)
    ((hkeep _).trans hanswered.symm)

theorem correctedPair_edited {subjects : MaterialSubjectMap} {snapshot : RevisionSnapshot content}
    {pair edited : EvidencedPair} {subject : MaterialSubject} {correction : ValueRevision}
    {original proposed : PublicValue} {allowMissingEvidence : Bool}
    (hresolve : subjects.resolve snapshot.material correction.subjectId = .ok (pair, subject))
    (h : correctedPair rt digest snapshot pair subject.side correction original
      allowMissingEvidence = .ok (proposed, edited)) :
    Edited subject.names subject.side pair edited := by
  obtain ⟨-, -, hsingle⟩ := resolve_ok hresolve
  have hanswered : subject.names pair = true :=
    (List.mem_filter.mp (hsingle ▸ List.mem_singleton_self pair)).2
  refine correctedPair_edits hanswered (fun observation => ?_) h
  rw [← hanswered]
  cases subject.side <;> rfl

theorem correct_edits {subjects : MaterialSubjectMap} {snapshot after : RevisionSnapshot content}
    {correction : ValueRevision} {actor : ActorReference} {revisionId : String}
    {allowMissingEvidence : Bool}
    (h : correct rt ctx digest subjects snapshot correction actor revisionId allowMissingEvidence =
      .ok after) : ∃ pair subject original proposed edited changes,
        subjects.resolve snapshot.material correction.subjectId = .ok (pair, subject) ∧
        correctedPair rt digest snapshot pair subject.side correction original
          allowMissingEvidence = .ok (proposed, edited) ∧
        snapshot.revise rt ctx content (replaceSubject snapshot.material subject edited) revisionId
          changes = .ok after := by
  unfold correct at h
  by_cases hhuman : actor.kind = .human
  · simp only [dif_pos hhuman, SubjectFault.value, guard_ok, bind_ok, mapError_ok] at h
    obtain ⟨-, ⟨pair, subject⟩, hresolve, original, -, ⟨proposed, edited⟩, hedited, corrected, -,
      h⟩ := h
    exact ⟨pair, subject, original, proposed, edited, _, hresolve, hedited, h⟩
  · rw [dif_neg hhuman] at h
    cases h

theorem correct_frame {subjects : MaterialSubjectMap} {snapshot after : RevisionSnapshot content}
    {correction : ValueRevision} {actor : ActorReference} {revisionId : String}
    {allowMissingEvidence : Bool}
    (h : correct rt ctx digest subjects snapshot correction actor revisionId allowMissingEvidence =
      .ok after) : ∃ subject ∈ subjects.bindings, subject.subjectId = correction.subjectId ∧
        CorrectionFrame rt subject.names subject.side snapshot after revisionId := by
  obtain ⟨pair, subject, original, proposed, edited, changes, hresolve, hedited, hrevise⟩ :=
    correct_edits h
  obtain ⟨hmem, hid, hsingle⟩ := resolve_ok hresolve
  obtain ⟨hcontext, hfactor⟩ := names_iff.mp
    (List.mem_filter.mp (hsingle ▸ List.mem_singleton_self pair)).2
  refine ⟨subject, hmem, hid, RevisionSnapshot.revise_frame hsingle (fun other _ => ?_)
    (edited_pairs hsingle (correctedPair_edited hresolve hedited)) hrevise⟩
  rw [names_iff, hcontext, hfactor, ComparisonContext.key_injective.eq_iff]

end MaterialSubjectMap

/-- On each path the child differs from the parent on the answered side alone. -/
structure CorrectionsFramed (rt : Runtime) (ctx : DecimalContext) (content : ContentDigest)
    (digest : TaskRepository.TaskDigest) : Prop where
  tasks : ∀ (reads : HumanTaskStore.Reads content) (principal : Principal) (taskId : UUID)
    (command : HumanResponse) (revisionId : String) (accepted : AcceptedResponse)
    (next : RevisionSnapshot content),
    HumanTaskStore.prepare rt ctx reads principal taskId command revisionId =
      .ok (.inr (accepted, some next)) →
    (accepted.command.action = .correct ∨ accepted.command.action = .supplyEvidence) →
    ∃ record head reference, HumanTaskStore.authorized reads principal taskId = .ok record ∧
      HumanTaskStore.readSnapshot reads.snapshot record.currentRevision = some head ∧
      head.revision.reference = record.currentRevision ∧ record.task.side = some reference ∧
      CorrectionFrame rt (HumanTaskStore.FactSideReference.names reference) reference.side head next
        revisionId
  subjects : ∀ (subjects : MaterialSubjectMap) (head next : RevisionSnapshot content)
    (correction : ValueRevision) (actor : ActorReference) (revisionId : String)
    (allowMissingEvidence : Bool),
    MaterialSubjectMap.correct rt ctx digest subjects head correction actor revisionId
      allowMissingEvidence = .ok next →
    ∃ subject ∈ subjects.bindings, subject.subjectId = correction.subjectId ∧
      CorrectionFrame rt subject.names subject.side head next revisionId

theorem corrections_framed (rt : Runtime) (ctx : DecimalContext) (content : ContentDigest)
    (digest : TaskRepository.TaskDigest) : CorrectionsFramed rt ctx content digest where
  tasks _ _ _ _ _ _ _ h haction := by
    obtain ⟨record, head, reference, hrecord, hhead, hside, hframe⟩ :=
      HumanTaskStore.prepare_frame h haction
    exact ⟨record, head, reference, hrecord, hhead, HumanTaskStore.readSnapshot_reference hhead,
      hside, hframe⟩
  subjects _ _ _ _ _ _ _ h := MaterialSubjectMap.correct_frame h

def versionContent : ContentDigest where
  material material := ⟨if material.policy.identity.version = "1" then sampleHash
    else String.ofList (sampleHash.toList.reverse), by split <;> decide⟩
  rules _ := ⟨sampleHash, sampleHash_text⟩
  response _ := ⟨sampleHash, sampleHash_text⟩

def sampleTaskDigest : TaskRepository.TaskDigest where
  tasks _ := ⟨sampleHash, sampleHash_text⟩
  review _ := ⟨sampleHash, sampleHash_text⟩
  value _ := ⟨sampleHash, sampleHash_text⟩
  context _ := ⟨sampleHash, sampleHash_text⟩

def sampleSubjects : MaterialSubjectMap where
  bindings := [⟨"subject", sampleContext, "factor", .target⟩]
  unique := List.nodup_singleton _

def categoryValue (text : String) : PublicValue where
  state := .present
  value := some (.normalized ⟨.category, .text text, none⟩)
  rawText := text
  confidence := some one64
  evidence := [sampleCitation "forms" text]
  stateValue := by simp
  confidenceUnit := one64_unit

theorem uncorrected_actor :
    (none : Option PublicValue).isSome = (none : Option ActorReference).isSome := rfl

theorem uncorrected_human : (none : Option ActorReference).all (·.kind = .human) = true := rfl

def sampleCorrection : ValueRevision where
  subjectId := "subject"
  original := categoryValue "yes"
  proposed := some (categoryValue "yes 5.0")
  named := by decide
  correctionActor := uncorrected_actor
  humanActor := uncorrected_human

def correctedSample :
    Except SubjectFault (RevisionSnapshot versionContent × RevisionSnapshot versionContent) := do
  let head ← (RevisionSnapshot.capture sampleRuntime .default versionContent
    ⟨samplePolicy, sampleFacts⟩ "1" none []).mapError .fault
  let next ← sampleSubjects.correct sampleRuntime .default sampleTaskDigest head sampleCorrection
    ⟨"reviewer", .human⟩ "2" false
  return (head, next)

theorem correctedSample_ok {head next : RevisionSnapshot versionContent}
    (h : correctedSample = .ok (head, next)) :
    sampleSubjects.correct sampleRuntime .default sampleTaskDigest head sampleCorrection
      ⟨"reviewer", .human⟩ "2" false = .ok next := by
  simp only [correctedSample, bind_ok, pure_ok, Prod.mk.injEq] at h
  obtain ⟨_, -, _, hcorrect, rfl, rfl⟩ := h
  exact hcorrect

theorem corrections_framed_sample : ∃ head next, correctedSample = .ok (head, next) ∧
    (next.material.facts.pairs.map fun pair => pair.pair.target.rawText) = [some "yes 5.0"] ∧
    ∃ subject ∈ sampleSubjects.bindings, subject.subjectId = "subject" ∧
      CorrectionFrame sampleRuntime subject.names subject.side head next "2" := by
  have hread : correctedSample.map (fun both => both.2.material.facts.pairs.map
      fun pair => pair.pair.target.rawText) = .ok [some "yes 5.0"] := by decide +kernel
  obtain ⟨both, hcorrected, htexts⟩ := map_ok.mp hread
  have framed := corrections_framed sampleRuntime .default versionContent sampleTaskDigest
  exact ⟨both.1, both.2, hcorrected, htexts,
    framed.subjects _ _ _ _ _ _ _ (correctedSample_ok hcorrected)⟩

end AppraisalReview
