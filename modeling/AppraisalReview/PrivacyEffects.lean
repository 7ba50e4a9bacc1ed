import AppraisalReview.PrivacyReview

set_option autoImplicit false

/-!
# What one call of the privacy review does

Every call is one of a few acts on the fields of the service. The invariants of
a run are read off the acts.
-/
namespace AppraisalReview.PrivacyReview
variable {uuid : ℕ → UUID} {digest : PrivacyReviewCommand → Digest}

theorem PrivacyReviewCommand.build_eq {source : LocalSourceSnapshot} {revision : ℕ}
    {policyDigest : Digest} {selections : List ReviewSelection} {reviewedPages : List ℕ}
    {command : PrivacyReviewCommand}
    (h : build source revision policyDigest selections reviewedPages = some command) :
    command.source = source ∧ command.selectionRevision = revision ∧
      command.selections = selections ∧ command.reviewedPages = reviewedPages := by
  unfold build at h
  split_ifs at h
  cases h
  exact ⟨rfl, rfl, rfl, rfl⟩

structure Quiet (s v : Service) : Prop where
  command : v.command = s.command
  scan : v.scan = s.scan
  approval : v.approval = s.approval
  attempt : v.confirmationAttempt = s.confirmationAttempt
  previewed : v.previewed = s.previewed
  serials : v.serials = s.serials
  revision : s.revision ≤ v.revision
  draws : s.draws ≤ v.draws

theorem Quiet.refl (s : Service) : Quiet s s :=
  ⟨rfl, rfl, rfl, rfl, rfl, rfl, Nat.le_refl _, Nat.le_refl _⟩

structure Emptied (s v : Service) : Prop where
  command : v.command = none
  scan : v.scan = none
  approval : v.approval = none
  attempt : v.confirmationAttempt = none
  previewed : v.previewed = []
  serials : v.serials = s.serials
  revision : s.revision ≤ v.revision
  draws : s.draws ≤ v.draws

structure Rescanned (s v : Service) (fresh : PrivacyReviewCommand) : Prop where
  command : v.command = some ⟨s.serials, fresh⟩
  number : fresh.selectionRevision = v.revision
  bare : fresh.selections = [] ∧ fresh.reviewedPages = []
  scan : v.scan = none
  approval : v.approval = none
  attempt : v.confirmationAttempt = none
  previewed : v.previewed = []
  serials : v.serials = s.serials + 1
  revision : v.revision = s.revision + 1
  draws : s.draws ≤ v.draws

/-- The candidates of a scan become the selections of the command that waited for it. -/
structure Filled (s v : Service) (pending : Held) (report : PrivacyScanReport)
    (fresh : PrivacyReviewCommand) : Prop where
  current : s.command.map Held.serial = some pending.serial
  origin : report.source = pending.command.source
  command : v.command = some ⟨s.serials, fresh⟩
  source : fresh.source = pending.command.source
  number : fresh.selectionRevision = pending.command.selectionRevision
  selections : fresh.selections.map ReviewSelection.candidate = report.candidates
  pages : fresh.reviewedPages = pending.command.reviewedPages
  scan : v.scan = some report
  approval : v.approval = s.approval
  attempt : v.confirmationAttempt = s.confirmationAttempt
  previewed : v.previewed = s.previewed
  serials : v.serials = s.serials + 1
  revision : v.revision = s.revision
  draws : s.draws ≤ v.draws

def PagesKept (s v : Service) (old new : PrivacyReviewCommand) : Prop :=
  (new.reviewedPages = [] ∧ v.previewed = []) ∨
    (new.selections = old.selections ∧ v.previewed = s.previewed ∧
      ∀ page ∈ new.reviewedPages, page ∈ old.reviewedPages ∨ page ∈ s.previewed)

structure Changed (s v : Service) (held : Held) (fresh : PrivacyReviewCommand) : Prop where
  current : s.command = some held
  command : v.command = some ⟨s.serials, fresh⟩
  source : fresh.source = held.command.source
  number : fresh.selectionRevision = s.revision + 1
  pages : PagesKept s v held.command fresh
  scan : v.scan = s.scan
  approval : v.approval = none
  attempt : v.confirmationAttempt = s.confirmationAttempt
  serials : v.serials = s.serials + 1
  revision : v.revision = s.revision + 1
  draws : s.draws ≤ v.draws

namespace Service

theorem check_ok {s : Service} {request : ReviewVersion} {held : Held}
    (h : s.check request = .ok held) : s.command = some held := by
  unfold check at h
  split at h
  · cases h
  · next current hcommand =>
    split_ifs at h
    cases h
    exact hcommand

theorem list_ok {s : Service} {ambient : Ambient} {view : PrivacyReviewView}
    (h : s.list digest ambient = .ok view) : ∃ held, s.command = some held ∧
      view.command = held.command := by
  unfold list at h
  split at h
  · cases h
  · next held hcommand =>
    cases h
    exact ⟨held, hcommand, rfl⟩

def Edits (s : Service) (reply : Except PrivacyErrorCode PrivacyReviewView × Service) : Prop :=
  (∃ code, reply.1 = .error code ∧ Quiet s reply.2) ∨
    ∃ held view, reply.1 = .ok view ∧ Changed s reply.2 held view.command

theorem Edits.refused {s : Service} (code : PrivacyErrorCode) : Edits s (.error code, s) :=
  Or.inl ⟨code, rfl, Quiet.refl s⟩

/-- A change after some draws of `uuid4`. -/
theorem change_edits {s t : Service} {held : Held} {selections : List ReviewSelection}
    {event : PrivacyReviewEvent} {reviewedPages : List ℕ} {clearPreviews : Bool} {ambient : Ambient}
    (hcurrent : s.command = some held) (hdrawn : ∃ n, t = { s with draws := s.draws + n })
    (hpages : (reviewedPages = [] ∧ clearPreviews = true) ∨
      (selections = held.command.selections ∧ clearPreviews = false ∧
        ∀ page ∈ reviewedPages, page ∈ held.command.reviewedPages ∨ page ∈ s.previewed)) :
    Edits s (change digest t held selections event reviewedPages clearPreviews ambient) := by
  obtain ⟨n, rfl⟩ := hdrawn
  unfold change
  by_cases hlimit : 1000 ≤ s.events.length ∨ 10000 < selections.length
  · rw [if_pos hlimit]
    exact Or.inl ⟨_, rfl, rfl, rfl, rfl, rfl, rfl, rfl, Nat.le_refl _, Nat.le_add_right _ _⟩
  · rw [if_neg hlimit]
    simp only
    cases hbuild : PrivacyReviewCommand.build held.command.source (s.revision + 1)
        held.command.policyDigest selections reviewedPages with
    | none =>
      exact Or.inl ⟨_, rfl, rfl, rfl, rfl, rfl, rfl, rfl, Nat.le_succ _, Nat.le_add_right _ _⟩
    | some command =>
      obtain ⟨hsource, hnumber, hselections, hreviewed⟩ := PrivacyReviewCommand.build_eq hbuild
      refine Or.inr ⟨held, _, rfl, hcurrent, rfl, hsource, hnumber, ?_, rfl, rfl, rfl, rfl, rfl,
        Nat.le_add_right _ _⟩
      rcases hpages with ⟨hnil, hclear⟩ | ⟨hsame, hclear, hfrom⟩
      · exact Or.inl ⟨hreviewed.trans hnil, if_pos hclear⟩
      · exact Or.inr ⟨hselections.trans hsame, if_neg (by simp [hclear]), hreviewed ▸ hfrom⟩

theorem add_edits (s : Service) (request : ReviewVersion) (region : PrivacyRegion)
    (category : SensitiveCategory) (ambient : Ambient) :
    Edits s (s.add uuid digest request region category ambient) := by
  unfold add
  cases hcheck : s.check request with
  | error code => exact Edits.refused code
  | ok held =>
    simp only
    split_ifs
    · exact Edits.refused _
    · exact change_edits (check_ok hcheck) ⟨3, rfl⟩ (Or.inl ⟨rfl, rfl⟩)

theorem edit_edits (s : Service) (request : ReviewVersion) (candidateId : UUID)
    (region : PrivacyRegion) (category : SensitiveCategory) (entityId : Option UUID)
    (ambient : Ambient) :
    Edits s (s.edit uuid digest request candidateId region category entityId ambient) := by
  unfold edit
  cases hcheck : s.check request with
  | error code => exact Edits.refused code
  | ok held =>
    simp only
    cases hselection : selection held candidateId with
    | none => exact Edits.refused _
    | some before =>
      simp only
      split_ifs
      · exact Edits.refused _
      · exact Edits.refused _
      · exact change_edits (check_ok hcheck) ⟨2, rfl⟩ (Or.inl ⟨rfl, rfl⟩)

theorem remove_edits (s : Service) (request : ReviewVersion) (candidateId : UUID)
    (reason : String) (ambient : Ambient) :
    Edits s (s.remove digest request candidateId reason ambient) := by
  unfold remove
  cases hcheck : s.check request with
  | error code => exact Edits.refused code
  | ok held =>
    simp only
    split_ifs
    · exact Edits.refused _
    · cases hselection : selection held candidateId with
      | none => exact Edits.refused _
      | some before => exact change_edits (check_ok hcheck) ⟨0, rfl⟩ (Or.inl ⟨rfl, rfl⟩)

theorem mem_reviewedWith {pages : List ℕ} {page p : ℕ} (h : p ∈ reviewedWith pages page) :
    p = page ∨ p ∈ pages := by
  rw [reviewedWith, List.mem_mergeSort, List.mem_dedup] at h
  exact List.mem_cons.mp h

theorem reviewPage_edits (s : Service) (request : ReviewVersion) (page : ℕ) (ambient : Ambient) :
    Edits s (s.reviewPage digest request page ambient) := by
  unfold reviewPage
  cases hcheck : s.check request with
  | error code => exact Edits.refused code
  | ok held =>
    simp only
    by_cases hpreviewed : page ∈ s.previewed
    · rw [if_neg (not_not.mpr hpreviewed)]
      refine change_edits (check_ok hcheck) ⟨0, rfl⟩ (Or.inr ⟨rfl, rfl, fun p hp => ?_⟩)
      rcases mem_reviewedWith hp with rfl | hold
      · exact Or.inr hpreviewed
      · exact Or.inl hold
    · rw [if_pos hpreviewed]
      exact Edits.refused _

theorem scanSelections_candidates (uuid : ℕ → UUID) (draws : ℕ)
    (candidates : List SensitiveCandidate) :
    (scanSelections uuid draws candidates).map ReviewSelection.candidate = candidates := by
  refine List.ext_getElem (by simp [scanSelections]) fun i _ _ => ?_
  simp [scanSelections]

theorem scanned_effect (s : Service) {pending : Held} (answer : Option PrivacyScanReport)
    (ambient : Ambient) :
    (∃ code, s.scanned uuid digest pending answer ambient = (.error code, s)) ∨
      ∃ report fresh view, answer = some report ∧
        (s.scanned uuid digest pending answer ambient).1 = .ok view ∧ view.command = fresh ∧
        Filled s (s.scanned uuid digest pending answer ambient).2 pending report fresh := by
  unfold scanned
  cases answer with
  | none => exact Or.inl ⟨_, rfl⟩
  | some report =>
    simp only
    by_cases hsource : report.source ≠ pending.command.source
    · rw [if_pos hsource]
      exact Or.inl ⟨_, rfl⟩
    rw [if_neg hsource]
    by_cases hcurrent : s.command.map Held.serial ≠ some pending.serial
    · rw [if_pos hcurrent]
      exact Or.inl ⟨_, rfl⟩
    rw [if_neg hcurrent]
    rw [not_not] at hsource hcurrent
    cases hbuild : PrivacyReviewCommand.build pending.command.source
        pending.command.selectionRevision pending.command.policyDigest
        (scanSelections uuid (s.draws + report.candidates.length - report.candidates.length)
          report.candidates) pending.command.reviewedPages with
    | none =>
      have hids := congrArg (List.map SensitiveCandidate.candidateId) (scanSelections_candidates
        uuid (s.draws + report.candidates.length - report.candidates.length) report.candidates)
      rw [List.map_map] at hids
      rw [PrivacyReviewCommand.build, dite_eq_right_iff] at hbuild
      refine absurd (hbuild ⟨hids ▸ report.distinct, pending.command.reviewed, ?_⟩) (by simp)
      intro selection hselection
      rw [← hsource]
      apply report.within
      rw [← scanSelections_candidates uuid _ report.candidates]
      exact List.mem_map_of_mem hselection
    | some fresh =>
      obtain ⟨hsame, hnumber, hselections, hreviewed⟩ := PrivacyReviewCommand.build_eq hbuild
      refine Or.inr ⟨report, fresh, _, rfl, rfl, rfl, hcurrent, hsource, rfl, hsame, hnumber, ?_, hreviewed,
        rfl, rfl, rfl, rfl, rfl, rfl, Nat.le_add_right _ _⟩
      rw [hselections]
      exact scanSelections_candidates uuid _ _

theorem rescan_effect (s : Service) (source : LocalSourceSnapshot) (policyDigest : Digest)
    (ambient : Ambient) :
    (∃ code v, s.rescan source policyDigest ambient = (.error code, v) ∧ Emptied s v) ∨
      ∃ fresh v, s.rescan source policyDigest ambient = (.ok ⟨s.serials, fresh⟩, v) ∧
        Rescanned s v fresh := by
  unfold rescan
  simp only
  cases hbuild : PrivacyReviewCommand.build source (s.revision + 1) policyDigest [] [] with
  | none =>
    exact Or.inl ⟨_, _, rfl, rfl, rfl, rfl, rfl, rfl, rfl, Nat.le_succ _, Nat.le_refl _⟩
  | some fresh =>
    obtain ⟨-, hnumber, hselections, hreviewed⟩ := PrivacyReviewCommand.build_eq hbuild
    cases hreadable : ambient.readable with
    | false =>
      exact Or.inl ⟨_, _, rfl, rfl, rfl, rfl, rfl, rfl, rfl, Nat.le_succ _, Nat.le_refl _⟩
    | true =>
      exact Or.inr ⟨fresh, _, rfl, rfl, hnumber, ⟨hselections, hreviewed⟩, rfl, rfl, rfl, rfl, rfl,
        rfl, Nat.le_refl _⟩

theorem preview_effect (s : Service) (request : ReviewVersion) (page : ℕ) (ambient : Ambient) :
    (∃ code, s.preview request page ambient = (.error code, s)) ∨
      ∃ held, s.command = some held ∧
        s.preview request page ambient = (.ok (), { s with previewed := page :: s.previewed }) := by
  unfold preview
  cases hcheck : s.check request with
  | error code => exact Or.inl ⟨code, rfl⟩
  | ok held =>
    simp only
    split_ifs
    · exact Or.inl ⟨_, rfl⟩
    · exact Or.inl ⟨_, rfl⟩
    · exact Or.inr ⟨held, check_ok hcheck, rfl⟩

theorem confirm_effect (s : Service) (request : ReviewVersion) (reviewDigest : Digest) :
    (∃ code, s.confirm digest request reviewDigest = (.error code, s)) ∨
      ∃ held, s.command = some held ∧
        held.command.reviewedPages = held.command.source.pages.map LocalSourcePage.number ∧
        s.confirm digest request reviewDigest = (.ok (s.serials, held), { s with
          approval := none, confirmationAttempt := some s.serials, serials := s.serials + 1 }) := by
  unfold confirm
  cases hcheck : s.check request with
  | error code => exact Or.inl ⟨code, rfl⟩
  | ok held =>
    simp only
    split_ifs with hready hmatch
    · exact Or.inl ⟨_, rfl⟩
    · exact Or.inl ⟨_, rfl⟩
    · exact Or.inr ⟨held, check_ok hcheck, by_contra fun h => hmatch (Or.inr h), rfl⟩

theorem answered_effect (s : Service) (attempt : ℕ) (held : Held) (principal : Option String)
    (ambient : Ambient) :
    (∃ code, s.answered uuid digest attempt held principal ambient = (.error code, s)) ∨
      ∃ approval : LocalPrivacyApproval, s.command.map Held.serial = some held.serial ∧
        s.ready = true ∧ approval.approvalId = uuid s.draws ∧
        approval.expiresAt = approval.approvedAt + lifetime ∧
        s.answered uuid digest attempt held principal ambient =
          (.ok approval, { s with approval := some approval, draws := s.draws + 1 }) := by
  unfold answered
  cases principal with
  | none => exact Or.inl ⟨_, rfl⟩
  | some principal =>
    simp only
    split_ifs with hblank hstale hready hreadable
    · exact Or.inl ⟨_, rfl⟩
    · exact Or.inl ⟨_, rfl⟩
    · exact Or.inl ⟨_, rfl⟩
    · exact Or.inl ⟨_, rfl⟩
    · rw [not_or, not_not, not_not] at hstale
      exact Or.inr ⟨_, hstale.1, by simpa using hready, rfl, rfl, rfl⟩

end Service

structure Waiting (s t : System) : Prop where
  scans : t.scans ⊆ s.scans
  prompts : t.prompts ⊆ s.prompts

inductive Acts (uuid : ℕ → UUID) (call : Call) (s : System) : System → Prop
  | quiet {t : System} (service : Quiet s.service t.service) (waiting : Waiting s t)
      (exposed : t.exposed = s.exposed) (shown : t.shown = s.shown) (issued : t.issued = s.issued) :
      Acts uuid call s t
  | listed {held : Held} (current : s.service.command = some held) :
      Acts uuid call s { s with exposed := s.exposed ++ [held.command] }
  | previewed {held : Held} (page : ℕ) (current : s.service.command = some held) :
      Acts uuid call s { s with
        service := { s.service with previewed := page :: s.service.previewed }
        shown := s.shown ++ [(page, held.command)] }
  | emptied {v : Service} (service : Emptied s.service v) : Acts uuid call s { s with service := v }
  | rescanned {v : Service} {fresh : PrivacyReviewCommand}
      (service : Rescanned s.service v fresh) :
      Acts uuid call s { s with service := v, scans := s.scans ++ [⟨s.service.serials, fresh⟩] }
  | filled {t : System} {pending : Held} {report : PrivacyScanReport}
      {fresh : PrivacyReviewCommand} (service : Filled s.service t.service pending report fresh)
      (asked : ∃ waiting ambient, call = .scanned waiting (some report) ambient ∧
        s.scans[waiting]? = some pending)
      (waiting : Waiting s t)
      (exposed : t.exposed = s.exposed ++ [fresh]) (shown : t.shown = s.shown)
      (issued : t.issued = s.issued) : Acts uuid call s t
  | changed {v : Service} {held : Held} {fresh : PrivacyReviewCommand}
      (service : Changed s.service v held fresh) :
      Acts uuid call s { s with service := v, exposed := s.exposed ++ [fresh] }
  | prompted {held : Held} (current : s.service.command = some held)
      (pages : held.command.reviewedPages = held.command.source.pages.map LocalSourcePage.number) :
      Acts uuid call s { s with
        service := { s.service with
          approval := none, confirmationAttempt := some s.service.serials
          serials := s.service.serials + 1 }
        prompts := s.prompts ++ [(s.service.serials, held)]
        exposed := s.exposed ++ [held.command] }
  | approved {t : System} {attempt : ℕ} {held : Held} {approval : LocalPrivacyApproval}
      (prompted : (attempt, held) ∈ s.prompts)
      (current : s.service.command.map Held.serial = some held.serial)
      (ready : s.service.ready = true)
      (drawn : approval.approvalId = uuid s.service.draws)
      (expires : approval.expiresAt = approval.approvedAt + lifetime)
      (service : t.service = { s.service with
        approval := some approval, draws := s.service.draws + 1 })
      (waiting : Waiting s t) (exposed : t.exposed = s.exposed) (shown : t.shown = s.shown)
      (issued : t.issued = s.issued ++ [(approval, held.command)]) : Acts uuid call s t

namespace System

theorem Waiting.refl (s : System) : Waiting s s :=
  ⟨List.Subset.refl _, List.Subset.refl _⟩

theorem Acts.refused {call : Call} {s t : System} (h : t.service = s.service) (waiting : Waiting s t)
    (exposed : t.exposed = s.exposed) (shown : t.shown = s.shown) (issued : t.issued = s.issued) :
    Acts uuid call s t :=
  .quiet (h ▸ Quiet.refl _) waiting exposed shown issued

theorem viewed_acts {call : Call} {s : System} {reply : Except PrivacyErrorCode PrivacyReviewView × Service}
    (h : s.service.Edits reply) : Acts uuid call s (s.viewed reply) := by
  obtain ⟨result, v⟩ := reply
  rcases h with ⟨code, rfl, hquiet⟩ | ⟨held, view, rfl, hchanged⟩
  · exact .quiet hquiet ⟨List.Subset.refl _, List.Subset.refl _⟩ rfl rfl rfl
  · exact .changed hchanged

theorem step_acts (s : System) (call : Call) : Acts uuid call s (s.step uuid digest call) := by
  cases call with
  | rescan source policyDigest ambient =>
    rcases s.service.rescan_effect source policyDigest ambient with
      ⟨code, v, hreply, hemptied⟩ | ⟨fresh, v, hreply, hrescanned⟩
    · simp only [step, rescan, hreply]
      exact .emptied hemptied
    · simp only [step, rescan, hreply]
      exact .rescanned hrescanned
  | scanned waiting answer ambient =>
    simp only [step, scanned]
    cases hwaits : s.scans[waiting]? with
    | none => exact Acts.refused rfl (Waiting.refl s) rfl rfl rfl
    | some pending =>
      simp only
      have hleft : s.scans.eraseIdx waiting ⊆ s.scans := List.eraseIdx_subset
      rcases @Service.scanned_effect uuid digest s.service pending answer ambient with
        ⟨code, hreply⟩ | ⟨report, fresh, view, hanswer, hreply, hview, hfilled⟩
      · exact Acts.refused (by simp [viewed, hreply]) ⟨hleft, List.Subset.refl _⟩
          (by simp [viewed, hreply]) rfl rfl
      · exact .filled hfilled ⟨waiting, ambient, by rw [hanswer], hwaits⟩ ⟨hleft, List.Subset.refl _⟩
          (by simp [viewed, hreply, hview]) rfl rfl
  | preview request page ambient =>
    rcases s.service.preview_effect request page ambient with ⟨code, hreply⟩ | ⟨held, hheld, hreply⟩
    · simp only [step, preview, hreply]
      exact Acts.refused rfl (Waiting.refl s) rfl rfl rfl
    · have hnext : s.step uuid digest (.preview request page ambient) = { s with
          service := { s.service with previewed := page :: s.service.previewed }
          shown := s.shown ++ [(page, held.command)] } := by
        simp only [step, preview, hreply]
        rw [hheld]
        rfl
      exact hnext ▸ .previewed page hheld
  | add request region category ambient =>
    exact viewed_acts (Service.add_edits s.service request region category ambient)
  | edit request candidateId region category entityId ambient =>
    exact viewed_acts
      (Service.edit_edits s.service request candidateId region category entityId ambient)
  | remove request candidateId reason ambient =>
    exact viewed_acts (Service.remove_edits s.service request candidateId reason ambient)
  | reviewPage request page ambient =>
    exact viewed_acts (Service.reviewPage_edits s.service request page ambient)
  | confirm request reviewDigest =>
    rcases @Service.confirm_effect digest s.service request reviewDigest with
      ⟨code, hreply⟩ | ⟨held, hheld, hpages, hreply⟩
    · simp only [step, confirm, hreply]
      exact Acts.refused rfl (Waiting.refl s) rfl rfl rfl
    · simp only [step, confirm, hreply]
      exact .prompted hheld hpages
  | answered waiting principal ambient =>
    simp only [step, answered]
    cases hwaits : s.prompts[waiting]? with
    | none => exact Acts.refused rfl (Waiting.refl s) rfl rfl rfl
    | some prompt =>
      obtain ⟨attempt, held⟩ := prompt
      have hleft : s.prompts.eraseIdx waiting ⊆ s.prompts := List.eraseIdx_subset
      rcases @Service.answered_effect uuid digest s.service attempt held principal ambient with
        ⟨code, hreply⟩ | ⟨approval, hcurrent, hready, hdrawn, hexpires, hreply⟩
      · simp only [hreply]
        exact Acts.refused rfl ⟨List.Subset.refl _, hleft⟩ rfl rfl rfl
      · simp only [hreply]
        exact .approved (List.mem_of_getElem? hwaits) hcurrent hready hdrawn hexpires rfl
          ⟨List.Subset.refl _, hleft⟩ rfl rfl rfl
  | list ambient =>
    simp only [step, viewed]
    cases hreply : s.service.list digest ambient with
    | error code => exact Acts.refused rfl (Waiting.refl s) rfl rfl rfl
    | ok view =>
      obtain ⟨held, hheld, hview⟩ := Service.list_ok hreply
      simp only [hview]
      exact .listed hheld
  | permits approval command now ambient => exact Acts.refused rfl (Waiting.refl s) rfl rfl rfl
  | close =>
    exact .emptied ⟨rfl, rfl, rfl, rfl, rfl, rfl, Nat.le_refl _, Nat.le_refl _⟩

theorem run_keeps {motive : System → Prop}
    (hstep : ∀ call s t, motive s → Acts uuid call s t → motive t) (calls : List Call) {s : System}
    (h : motive s) : motive (s.run uuid digest calls) := by
  induction calls generalizing s with
  | nil => exact h
  | cons call rest ih => exact ih (hstep call s _ h (step_acts s call))

end System
end AppraisalReview.PrivacyReview
