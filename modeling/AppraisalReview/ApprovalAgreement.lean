import AppraisalReview.LocalApproval
import AppraisalReview.MaterialText
import AppraisalReview.ReliabilityFindings
import AppraisalReview.Reordering

set_option autoImplicit false

/-!
# Approval agrees with the review gate

A receipt answers for the material it was given for, as its text shows it, and the
two loops over the sides of all pairs, in the store and in the review, agree.
-/
namespace AppraisalReview.LocalApproval
open TopologicalSort Raising

variable {os : Platform} {reviewer : Reviewer}

/-- An approval of the calls that completed, and what had been called before it. -/
structure Completed (os : Platform) (reviewer : Reviewer) (calls : List Call)
    (material : ReviewMaterial) (receipt : ApprovalReceipt) : Prop where
  call : ∃ before after expected now, calls = before ++ .approve material expected now :: after ∧
    ((run os reviewer before).approve os material expected now).1 = .ok receipt

theorem Completed.later {calls : List Call} {material : ReviewMaterial} {receipt : ApprovalReceipt}
    (h : Completed os reviewer calls material receipt) (call : Call) :
    Completed os reviewer (calls ++ [call]) material receipt := by
  obtain ⟨before, after, expected, now, rfl, hok⟩ := h.call
  exact ⟨before, after ++ [call], expected, now, by simp, hok⟩

theorem run_append (calls : List Call) (call : Call) :
    run os reviewer (calls ++ [call]) = step os (run os reviewer calls) call := by
  simp [run, List.foldl_append]

theorem approve_cases (os : Platform) (store : LocalApprovalStore) (material : ReviewMaterial)
    (expected : String) (now : Int) :
    ((store.approve os material expected now).2 = store) ∨
    ∃ receipt, store.approve os material expected now = (.ok receipt, { store with
      receipts := Function.update store.receipts (os.digest material) (some receipt) }) := by
  unfold LocalApprovalStore.approve
  dsimp only
  split
  · exact Or.inl rfl
  · split
    · exact Or.inl rfl
    · split
      · exact Or.inl rfl
      · exact Or.inr ⟨_, rfl⟩

theorem approve_reviewer (store : LocalApprovalStore) (material : ReviewMaterial)
    (expected : String) (now : Int) :
    (store.approve os material expected now).2.reviewer = store.reviewer := by
  rcases approve_cases os store material expected now with h | ⟨receipt, h⟩ <;> rw [h]

theorem run_reviewer (calls : List Call) : (run os reviewer calls).reviewer = reviewer := by
  induction calls using List.reverseRecOn with
  | nil => rfl
  | append_singleton calls call ih =>
    rw [run_append]
    cases call with
    | approve material expected now => exact (approve_reviewer _ _ _ _).trans ih
    | permits material now => exact ih

theorem receipts_completed {calls : List Call} {digest : Digest} {receipt : ApprovalReceipt}
    (h : (run os reviewer calls).receipts digest = some receipt) :
    ∃ material, os.digest material = digest ∧ Completed os reviewer calls material receipt := by
  induction calls using List.reverseRecOn with
  | nil => cases h
  | append_singleton calls call ih =>
    have hold : (run os reviewer calls).receipts digest = some receipt →
        ∃ material, os.digest material = digest ∧
          Completed os reviewer (calls ++ [call]) material receipt := by
      intro hreceipt
      obtain ⟨material, hdigest, hcompleted⟩ := ih hreceipt
      exact ⟨material, hdigest, hcompleted.later call⟩
    rw [run_append] at h
    cases call with
    | permits material now => exact hold h
    | approve material expected now =>
      rcases approve_cases os (run os reviewer calls) material expected now with
        hsame | ⟨given, hgiven⟩
      · rw [step, hsame] at h
        exact hold h
      · rw [step, hgiven] at h
        by_cases hdigest : digest = os.digest material
        · subst hdigest
          simp only [Function.update_self, Option.some.injEq] at h
          subst h
          exact ⟨material, rfl, calls, [], expected, now, rfl, by rw [hgiven]⟩
        · simp only [Function.update_of_ne hdigest] at h
          exact hold h

theorem permits_true {store : LocalApprovalStore} {material : ReviewMaterial} {now : Int}
    (h : store.permits os material now = true) :
    (∃ receipt, store.receipts (os.digest material) = some receipt) ∧
      confirmationsValid os.rt os.ctx material store.reviewer = true := by
  unfold LocalApprovalStore.permits at h
  split at h
  · cases h
  · rename_i receipt hreceipt
    simp only [Bool.and_eq_true] at h
    exact ⟨⟨receipt, hreceipt⟩, h.1.1.1.1.1.1⟩

theorem approve_apart (store : LocalApprovalStore) {material other : ReviewMaterial}
    (hdigest : os.digest other ≠ os.digest material) (expected : String) (at_ now : Int) :
    ((store.approve os other expected at_).2).permits os material now =
      store.permits os material now := by
  rcases approve_cases os store other expected at_ with h | ⟨receipt, h⟩
  · rw [h]
  · rw [h]
    simp only [LocalApprovalStore.permits, Function.update_of_ne (Ne.symm hdigest)]

structure Eligible (rt : Runtime) (registry : SourceRegistry) (reviewer : Reviewer)
    (pair : EvidencedPair) (side : Side) : Prop where
  resolved : (pair.reliability side).unresolved = []
  unambiguous : (pair.reliability side).selection ≠ .ambiguous
  read : ∃ raw, (pair.pair.observation side).rawText = some raw
  evidenced : (pair.pair.observation side).evidence ≠ []
  cited : registry.citationsValid (pair.sources side) = true
  matched : sideCited pair side = true
  anchored : ∀ evidence ∈ (pair.pair.observation side).evidence,
    evidenceAnchored rt registry (pair.sources side) evidence = .ok true
  method : methodEligible rt reviewer pair side = true

theorem sideEligible_true {rt : Runtime} {registry : SourceRegistry} {pair : EvidencedPair}
    {side : Side} (h : sideEligible rt registry reviewer pair side = .ok true) :
    Eligible rt registry reviewer pair side := by
  simp only [sideEligible] at h
  split at h
  · cases h
  · rename_i hbasic
    split at h
    · cases h
    · rename_i hmatched
      obtain ⟨anchored, hanchored, h⟩ := bind_ok.mp h
      have hboth := Except.ok.inj h
      rw [Bool.and_eq_true] at hboth
      obtain ⟨rfl, hmethod⟩ := hboth
      simp only [not_or, not_not] at hbasic
      obtain ⟨hresolved, hselection, -, hraw, hevidence, hrefs, hresolves⟩ := hbasic
      refine ⟨hresolved, hselection, ?_, hevidence, citationsValid_iff.mpr ⟨hrefs, ?_⟩,
        not_not.mp hmatched, allM_true.mp hanchored, hmethod⟩
      · cases hread : (pair.pair.observation side).rawText with
        | none => exact absurd (by rw [hread]; rfl) hraw
        | some raw => exact ⟨raw, rfl⟩
      · exact List.all_eq_true.mp hresolves

theorem confirmationsValid_true {rt : Runtime} {ctx : DecimalContext} {material : ReviewMaterial}
    (h : confirmationsValid rt ctx material reviewer = true) {pair : EvidencedPair}
    (hpair : pair ∈ material.facts.pairs) (side : Side) :
    Eligible rt material.policy.registry reviewer pair side := by
  unfold confirmationsValid at h
  rw [Bool.and_eq_true] at h
  obtain ⟨-, h⟩ := h
  split at h
  · rename_i eligible heligible
    subst h
    exact sideEligible_true (allM_true.mp (allM_true.mp heligible pair hpair) side (mem_sides side))
  · cases h

/-- Evidence that is anchored stands for the citations that it locates, and for no other. -/
theorem evidenceAnchored_matches {rt : Runtime} {registry : SourceRegistry}
    {refs : List SourceCitation} {evidence : EvidenceRef}
    (h : evidenceAnchored rt registry refs evidence = .ok true) :
    (∃ ref ∈ refs, evidence.locates ref = true) ∧
      ∀ ref, evidenceMatches rt registry evidence ref = .ok (evidence.locates ref) := by
  unfold evidenceAnchored at h
  split at h
  · cases h
  · rename_i file hfile
    split at h
    · cases h
    · rename_i hplace
      rw [not_or, not_not, not_not, List.any_eq_true] at hplace
      obtain ⟨hsystem, hlocated⟩ := hplace
      split at h
      · cases h
      · rename_i document hdocument
        obtain ⟨own, hown, h⟩ := bind_ok.mp h
        obtain ⟨registered, hregistered, h⟩ := bind_ok.mp h
        refine ⟨hlocated, fun ref => ?_⟩
        simp only [evidenceMatches, hfile]
        cases hlocates : evidence.locates ref with
        | false => simp
        | true =>
          have hid : evidence.documentId = ref.documentId := by
            have hsame := hlocates
            simp only [EvidenceRef.locates, Bool.and_eq_true, decide_eq_true_eq] at hsame
            exact hsame.1.1
          have hsame : own = registered := by simpa using Except.ok.inj h
          rw [if_neg (by simp [hsystem]), ← hid, hdocument]
          refine bind_ok.mpr ⟨own, hown, bind_ok.mpr ⟨registered, hregistered, ?_⟩⟩
          exact pure_ok.mpr (decide_eq_true hsame)

/-- An eligible side is located for the gate when its excerpts agree with what was read. -/
theorem Eligible.located {rt : Runtime} {registry : SourceRegistry} {pair : EvidencedPair}
    {side : Side} (h : Eligible rt registry reviewer pair side)
    (hexcerpts : ∀ raw, (pair.pair.observation side).rawText = some raw →
      ∀ ref ∈ pair.sources side, excerptAgrees raw ref = true) :
    sideLocated rt registry pair side = .ok true := by
  obtain ⟨raw, hraw⟩ := h.read
  have hproposed : (pair.reliability side).method ≠ .modelProposed := by
    intro hmethod
    have := h.method
    rw [methodEligible, hmethod] at this
    cases this
  have hmatched : ((pair.pair.observation side).evidence.allM fun evidence =>
      (pair.sources side).anyM fun ref => evidenceMatches rt registry evidence ref) = .ok true := by
    refine allM_true.mpr fun evidence hin => ?_
    obtain ⟨⟨ref, href, hlocates⟩, hmatches⟩ := evidenceAnchored_matches (h.anchored evidence hin)
    rw [Reordering.anyM_eq_any fun ref _ => hmatches ref, List.any_eq_true.mpr ⟨ref, href, hlocates⟩]
  simp only [sideLocated, hraw]
  rw [if_neg (by simp [h.cited, hproposed, h.resolved, h.unambiguous, h.evidenced]), hmatched]
  exact congrArg Except.ok (List.all_eq_true.mpr (hexcerpts raw hraw))

theorem Eligible.sideMethod {rt : Runtime} {registry : SourceRegistry} {pair : EvidencedPair}
    {side : Side} (h : Eligible rt registry reviewer pair side) :
    sideMethod rt true pair side = true := by
  have hmethod := h.method
  rw [methodEligible] at hmethod
  rw [AppraisalReview.sideMethod]
  cases hm : (pair.reliability side).method with
  | modelProposed => rw [hm] at hmethod; cases hmethod
  | nativeNumeric =>
    rw [hm] at hmethod
    simp only [Bool.and_eq_true] at hmethod ⊢
    exact hmethod.1
  | reviewerConfirmed =>
    rw [hm] at hmethod
    simp only [sideConfirmed, Bool.and_eq_true, true_and] at hmethod ⊢
    obtain ⟨⟨hsigned, hkind⟩, hprovenance⟩ := hmethod
    obtain ⟨confirmation, hsome, hboth⟩ := (Option.any_eq_true _ _).mp hsigned
    rw [Bool.and_eq_true] at hboth
    exact ⟨⟨(Option.any_eq_true _ _).mpr ⟨confirmation, hsome, hboth.2⟩, hkind⟩, hprovenance⟩

theorem pairReliable_of_eligible {rt : Runtime} {registry : SourceRegistry} {pair : EvidencedPair}
    (h : ∀ side, Eligible rt registry reviewer pair side)
    (hexcerpts : ∀ side raw, (pair.pair.observation side).rawText = some raw →
      ∀ ref ∈ pair.sources side, excerptAgrees raw ref = true) :
    pairReliable rt registry true pair = .ok true := by
  have hlocated : sides.allM (sideLocated rt registry pair) = .ok true :=
    allM_true.mpr fun side _ => (h side).located (hexcerpts side)
  have hsides : (sides.all fun side => sideCited pair side &&
      AppraisalReview.sideMethod rt true pair side) = true := by
    rw [List.all_eq_true]
    intro side _
    rw [Bool.and_eq_true]
    exact ⟨(h side).matched, (h side).sideMethod⟩
  rw [pairReliable, hlocated]
  exact congrArg Except.ok hsides

def Collide (os : Platform) (a b : ReviewMaterial) : Prop :=
  os.digest a = os.digest b ∧ a.canonical os.isoformat ≠ b.canonical os.isoformat

structure ExcerptsDiffer (pair : EvidencedPair) (side : Side) (raw : String)
    (ref : SourceCitation) : Prop where
  read : (pair.pair.observation side).rawText = some raw
  cited : ref ∈ pair.sources side
  differs : excerptAgrees raw ref = false

/-- What holds of a store after some calls, and of a review that asks it. -/
structure Agreement (os : Platform) (reviewer : Reviewer) (calls : List Call) : Prop where
  exact : ∀ material now, (run os reviewer calls).permits os material now = true →
    (∃ other receipt, os.digest other = os.digest material ∧
      Completed os reviewer calls other receipt) ∧
    confirmationsValid os.rt os.ctx material reviewer = true
  changed : ∀ material now, (∀ other receipt, Completed os reviewer calls other receipt →
      ¬other.Alike material ∧ ¬Collide os other material) →
    (run os reviewer calls).permits os material now = false
  apart : ∀ material other expected at_ now, ¬other.Alike material → ¬Collide os other material →
    (run os reviewer (calls ++ [.approve other expected at_])).permits os material now =
      (run os reviewer calls).permits os material now
  reviewable : ∀ (gate : CaseReviewer) (sorter : Sorter String) (input : ReviewInput)
    (result : CaseReviewResult) (now : Int),
    gate.authorization = some ((run os reviewer calls).authorization os now) →
    (run os reviewer calls).permits os ⟨input.policy, input.facts⟩ now = true →
    input.registry = input.policy.registry →
    review os.rt os.ctx gate sorter input = .ok result →
    ∀ finding ∈ result.findings, finding.kind = "evidence_reliability" →
      ∃ entry factor pair, Unreliable os.rt gate input finding entry factor pair ∧
        ∃ side raw ref, ExcerptsDiffer pair side raw ref
  confirmed : ∀ (gate : CaseReviewer) (input : ReviewInput) (now : Int),
    gate.authorization = some ((run os reviewer calls).authorization os now) →
    ∀ pair ∈ input.facts.pairs, ∀ factor side,
      (factor, side) ∈ confirmedSidesOf os.rt (gate.authorized input) factor pair →
      ∃ confirmation, (pair.reliability side).confirmation = some confirmation ∧
        confirmation.reviewer = reviewer.label

theorem not_collide {a b : ReviewMaterial} (h : ¬Collide os a b) (halike : ¬a.Alike b) :
    os.digest a ≠ os.digest b := by
  intro hdigest
  apply h
  refine ⟨hdigest, fun hcanonical => halike ?_⟩
  exact (ReviewMaterial.canonical_eq_iff os.isoformat_injective a b).mp hcanonical

theorem authorized_eq {gate : CaseReviewer} {store : LocalApprovalStore} {now : Int}
    (h : gate.authorization = some (store.authorization os now)) (input : ReviewInput) :
    gate.authorized input = store.permits os ⟨input.policy, input.facts⟩ now := by
  rw [CaseReviewer.authorized, h]
  rfl

/-- The material that the store permits is reviewed as it was approved. -/
theorem approval_agreement (os : Platform) (reviewer : Reviewer) (calls : List Call) :
    Agreement os reviewer calls := by
  have hvalid : ∀ material now, (run os reviewer calls).permits os material now = true →
      confirmationsValid os.rt os.ctx material reviewer = true := by
    intro material now h
    have hboth := (permits_true h).2
    rwa [run_reviewer] at hboth
  have hexact : ∀ material now, (run os reviewer calls).permits os material now = true →
      ∃ other receipt, os.digest other = os.digest material ∧
        Completed os reviewer calls other receipt := by
    intro material now h
    obtain ⟨⟨receipt, hreceipt⟩, -⟩ := permits_true h
    obtain ⟨other, hdigest, hcompleted⟩ := receipts_completed hreceipt
    exact ⟨other, receipt, hdigest, hcompleted⟩
  refine ⟨fun material now h => ⟨hexact material now h, hvalid material now h⟩, ?_, ?_, ?_, ?_⟩
  · intro material now hother
    by_contra hpermits
    obtain ⟨other, receipt, hdigest, hcompleted⟩ :=
      hexact material now (Bool.not_eq_false _ ▸ hpermits)
    obtain ⟨halike, hcollide⟩ := hother other receipt hcompleted
    exact not_collide hcollide halike hdigest
  · intro material other expected at_ now halike hcollide
    rw [run_append]
    exact approve_apart _ (not_collide hcollide halike) expected at_ now
  · intro gate sorter input result now hgate hpermits hregistry hreview finding hin hkind
    obtain ⟨entry, factor, pair, hunreliable⟩ := review_unreliable hreview hin hkind
    refine ⟨entry, factor, pair, hunreliable, ?_⟩
    by_contra hagree
    have hpair := (pairOf_some hunreliable.found).1
    have hreliable : pairReliable os.rt input.registry true pair = .ok true := by
      rw [hregistry]
      refine pairReliable_of_eligible (confirmationsValid_true (hvalid _ now hpermits) hpair) ?_
      intro side raw hraw ref href
      cases hexcerpt : excerptAgrees raw ref with
      | true => rfl
      | false => exact absurd ⟨side, raw, ref, hraw, href, hexcerpt⟩ hagree
    have hfalse := hunreliable.unreliable
    rw [authorized_eq hgate, hpermits, hreliable] at hfalse
    cases hfalse
  · intro gate input now hgate pair hpair factor side hin
    obtain ⟨side', hside, heq⟩ := List.mem_map.mp hin
    cases heq
    have hconfirmed := (List.mem_filter.mp hside).2
    rw [Bool.and_eq_true, decide_eq_true_eq, sideConfirmed, authorized_eq hgate] at hconfirmed
    simp only [Bool.and_eq_true] at hconfirmed
    obtain ⟨hmethod, ⟨⟨hpermits, -⟩, -⟩, -⟩ := hconfirmed
    have heligible := (confirmationsValid_true (hvalid _ now hpermits) hpair side).method
    rw [methodEligible, hmethod] at heligible
    simp only [Bool.and_eq_true] at heligible
    obtain ⟨confirmation, hsome, hboth⟩ := (Option.any_eq_true _ _).mp heligible.1.1
    rw [Bool.and_eq_true, decide_eq_true_eq] at hboth
    exact ⟨confirmation, hsome, hboth.1⟩

def sampleMaterial : ReviewMaterial := ⟨samplePolicy, sampleFacts⟩

/-- The same material with one observed number given as the text of the number. -/
def respelledMaterial : ReviewMaterial :=
  ⟨samplePolicy, { sampleFacts with observed :=
    [{ sampleObserved "adjustment" with value := some (.text "5.0") }, sampleObserved "total"] }⟩

/-- The day of the sample is written as `isoformat` writes it. -/
def sampleIsoformat (day : Date) : String :=
  if day = 738886 then "2024-01-01" else String.ofList ('+' :: Nat.toDigits 10 day)

theorem sampleIsoformat_injective : Function.Injective sampleIsoformat := by
  have hother : ∀ day : ℕ, "2024-01-01" ≠ String.ofList ('+' :: Nat.toDigits 10 day) := by
    intro day h
    have hfirst := congrArg (fun text => text.toList.head?) h
    simp only [String.toList_ofList, List.head?_cons] at hfirst
    exact absurd hfirst (by decide)
  intro a b h
  unfold sampleIsoformat at h
  split at h <;> split at h
  · rename_i ha hb
    rw [ha, hb]
  · exact absurd h (hother b)
  · exact absurd h.symm (hother a)
  · have hchars := congrArg String.toList h
    rw [String.toList_ofList, String.toList_ofList, List.cons.injEq] at hchars
    rw [← Decimal.natOf_toDigits a, hchars.2, Decimal.natOf_toDigits]

def samplePlatform : Platform where
  rt := sampleRuntime
  ctx := .default
  isoformat := sampleIsoformat
  isoformat_injective := sampleIsoformat_injective
  sign _ := ⟨sampleHash, sampleHash_text⟩

def sampleCalls : List Call := [.approve sampleMaterial sampleHash 0]

/-- The digest does not tell a number from its text, so the approval of one is the other's. -/
theorem respelled_permitted :
    respelledMaterial ≠ sampleMaterial ∧
      (∀ (isoformat : Date → String) (rt : Runtime),
        contentDigest isoformat rt respelledMaterial = contentDigest isoformat rt sampleMaterial) ∧
      (run samplePlatform ⟨0, "reviewer"⟩ []).permits samplePlatform respelledMaterial 0 = false ∧
      (run samplePlatform ⟨0, "reviewer"⟩ sampleCalls).permits samplePlatform respelledMaterial 0 =
        true := by
  refine ⟨?_, ?_, rfl, by decide +kernel⟩
  · intro h
    have hobserved := congrArg (fun material => material.facts.observed.map ObservedValue.value) h
    cases hobserved
  · intro isoformat rt
    rfl

end AppraisalReview.LocalApproval
