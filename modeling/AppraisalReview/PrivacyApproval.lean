import AppraisalReview.PrivacyEffects

set_option autoImplicit false

/-!
# Privacy approval is exact and revocable

An approval stands for the command object that the human was prompted with. A
scan or an answer that comes late meets another object, or another attempt, and
grants nothing; what is revoked cannot come back because its id was drawn before.
-/
namespace AppraisalReview.PrivacyReview
variable {uuid : ℕ → UUID} {digest : PrivacyReviewCommand → Digest} {call : Call}

/-- The command objects that the service or a call that waits can reach. -/
def System.Holds (s : System) (held : Held) : Prop :=
  s.service.command = some held ∨ held ∈ s.scans ∨ ∃ attempt, (attempt, held) ∈ s.prompts

structure Objects (s : System) : Prop where
  made : ∀ held, s.Holds held → held.serial < s.service.serials
  same : ∀ held other, s.Holds held → s.Holds other → held.serial = other.serial → held = other

theorem Objects.kept {s t : System} (h : Objects s)
    (hserials : s.service.serials ≤ t.service.serials)
    (hold : ∀ held, t.Holds held → s.Holds held) : Objects t where
  made held hheld := Nat.lt_of_lt_of_le (h.made held (hold held hheld)) hserials
  same held other hheld hother := h.same held other (hold held hheld) (hold other hother)

theorem Objects.fresh {s t : System} (h : Objects s) {newcomer : Held}
    (hserial : newcomer.serial = s.service.serials)
    (hserials : t.service.serials = s.service.serials + 1)
    (hold : ∀ held, t.Holds held → s.Holds held ∨ held = newcomer) : Objects t where
  made held hheld := by
    rcases hold held hheld with hbefore | rfl
    · have := h.made held hbefore
      omega
    · omega
  same held other hheld hother hequal := by
    rcases hold held hheld with hbefore | rfl <;> rcases hold other hother with hbefore' | rfl
    · exact h.same held other hbefore hbefore' hequal
    · exact absurd (h.made held hbefore) (by omega)
    · exact absurd (h.made other hbefore') (by omega)
    · rfl

theorem Waiting.holds {s t : System} (h : Waiting s t) {held : Held} (hheld : t.Holds held) :
    t.service.command = some held ∨ s.Holds held := by
  rcases hheld with hcommand | hscan | ⟨attempt, hprompt⟩
  · exact Or.inl hcommand
  · exact Or.inr (Or.inr (Or.inl (h.scans hscan)))
  · exact Or.inr (Or.inr (Or.inr ⟨attempt, h.prompts hprompt⟩))

theorem Waiting.holds_new {s t : System} (h : Waiting s t) {newcomer held : Held}
    (hnew : t.service.command = some newcomer) (hheld : t.Holds held) :
    s.Holds held ∨ held = newcomer := by
  rcases h.holds hheld with hcommand | hbefore
  · exact Or.inr (Option.some.inj (hcommand.symm.trans hnew))
  · exact Or.inl hbefore

theorem objects_act {s t : System} (h : Objects s) (hact : Acts uuid call s t) : Objects t := by
  cases hact with
  | quiet service waiting _ _ _ =>
    refine h.kept service.serials.ge fun held hheld => ?_
    rcases waiting.holds hheld with hcommand | hbefore
    · exact Or.inl (service.command ▸ hcommand)
    · exact hbefore
  | listed current => exact h.kept (Nat.le_refl _) fun _ hheld => hheld
  | previewed page current => exact h.kept (Nat.le_refl _) fun _ hheld => hheld
  | emptied service =>
    refine h.kept service.serials.ge fun held hheld => ?_
    rcases hheld with hcommand | hbefore
    · cases service.command.symm.trans hcommand
    · exact Or.inr hbefore
  | @rescanned v fresh service =>
    refine h.fresh (rfl : (⟨s.service.serials, fresh⟩ : Held).serial = _) service.serials
      fun held hheld => ?_
    rcases hheld with hcommand | hscan | hprompt
    · exact Or.inr (Option.some.inj (hcommand.symm.trans service.command))
    · rcases List.mem_append.mp hscan with hbefore | hnew
      · exact Or.inl (Or.inr (Or.inl hbefore))
      · exact Or.inr (List.mem_singleton.mp hnew)
    · exact Or.inl (Or.inr (Or.inr hprompt))
  | filled service asked waiting _ _ _ =>
    exact h.fresh rfl service.serials fun held => waiting.holds_new service.command
  | @changed v held fresh service =>
    refine h.fresh (rfl : (⟨s.service.serials, fresh⟩ : Held).serial = _) service.serials
      fun held hheld => ?_
    rcases hheld with hcommand | hbefore
    · exact Or.inr (Option.some.inj (hcommand.symm.trans service.command))
    · exact Or.inl (Or.inr hbefore)
  | prompted current pages =>
    refine h.kept (Nat.le_succ _) fun held hheld => ?_
    rcases hheld with hcommand | hscan | ⟨attempt, hprompt⟩
    · exact Or.inl hcommand
    · exact Or.inr (Or.inl hscan)
    · rcases List.mem_append.mp hprompt with hbefore | hnew
      · exact Or.inr (Or.inr ⟨attempt, hbefore⟩)
      · cases List.mem_singleton.mp hnew
        exact Or.inl current
  | approved prompted current ready drawn expires service waiting _ _ _ =>
    refine h.kept (by rw [service]) fun held hheld => ?_
    rcases waiting.holds hheld with hcommand | hbefore
    · rw [service] at hcommand
      exact Or.inl hcommand
    · exact hbefore

def PrivacyReviewCommand.FullyReviewed (command : PrivacyReviewCommand) : Prop :=
  command.reviewedPages = command.source.pages.map LocalSourcePage.number

structure Stands (s : System) (approval : LocalPrivacyApproval) (held : Held) : Prop where
  current : s.service.command = some held
  latest : s.issued.getLast? = some (approval, held.command)
  window : approval.expiresAt = approval.approvedAt + lifetime
  pages : held.command.FullyReviewed

structure Sound (s : System) : Prop where
  objects : Objects s
  unscanned : ∀ pending ∈ s.scans,
    s.service.command.map Held.serial = some pending.serial → s.service.scan = none
  unapproved : s.service.scan = none → s.service.approval = none
  prompted : ∀ prompt ∈ s.prompts, prompt.2.command.FullyReviewed
  approved : ∀ approval, s.service.approval = some approval → ∃ held, Stands s approval held

theorem Sound.unapproved_of {s t : System} (h : Sound s) (hact : Acts uuid call s t)
    (happroval : t.service.approval = none)
    (hunscanned : ∀ pending ∈ t.scans,
      t.service.command.map Held.serial = some pending.serial → t.service.scan = none)
    (hprompted : ∀ prompt ∈ t.prompts, prompt.2.command.FullyReviewed) : Sound t where
  objects := objects_act h.objects hact
  unscanned := hunscanned
  unapproved _ := happroval
  prompted := hprompted
  approved approval hsome := by
    rw [happroval] at hsome
    cases hsome

theorem Objects.scan_older {s : System} (h : Objects s) {pending newcomer : Held}
    (hpending : pending ∈ s.scans) (hserial : newcomer.serial = s.service.serials) :
    (some newcomer).map Held.serial ≠ some pending.serial := by
  intro hequal
  have hmade := h.made pending (Or.inr (Or.inl hpending))
  have : newcomer.serial = pending.serial := Option.some.inj hequal
  omega

theorem Sound.kept {s t : System} (h : Sound s) (hact : Acts uuid call s t)
    (hcommand : t.service.command = s.service.command) (hscan : t.service.scan = s.service.scan)
    (happroval : t.service.approval = s.service.approval) (hwaiting : Waiting s t)
    (hissued : t.issued = s.issued) : Sound t where
  objects := objects_act h.objects hact
  unscanned pending hpending hcurrent :=
    hscan ▸ h.unscanned pending (hwaiting.scans hpending) (hcommand ▸ hcurrent)
  unapproved hnone := happroval ▸ h.unapproved (hscan ▸ hnone)
  prompted prompt hprompt := h.prompted prompt (hwaiting.prompts hprompt)
  approved approval hsome := by
    obtain ⟨held, hstands⟩ := h.approved approval (happroval ▸ hsome)
    exact ⟨held, hcommand ▸ hstands.current, hissued ▸ hstands.latest, hstands.window,
      hstands.pages⟩

theorem sound_act {s t : System} (h : Sound s) (hact : Acts uuid call s t) : Sound t := by
  cases hact' : hact with
  | quiet service waiting _ _ issued =>
    exact h.kept hact service.command service.scan service.approval waiting issued
  | listed current => exact h.kept hact rfl rfl rfl ⟨List.Subset.refl _, List.Subset.refl _⟩ rfl
  | previewed page current => exact h.kept hact rfl rfl rfl ⟨List.Subset.refl _, List.Subset.refl _⟩ rfl
  | emptied service =>
    exact h.unapproved_of hact service.approval (fun _ _ _ => service.scan) h.prompted
  | rescanned service =>
    exact h.unapproved_of hact service.approval (fun _ _ _ => service.scan) h.prompted
  | filled service asked waiting _ _ _ =>
    -- the waiting scan was the current one, so that nothing was scanned or approved before
    obtain ⟨_, _, -, hwaits⟩ := asked
    have hnone := h.unapproved (h.unscanned _ (List.mem_of_getElem? hwaits) service.current)
    refine h.unapproved_of hact (service.approval.trans hnone) (fun pending hpending hcurrent => ?_)
      fun prompt hprompt => h.prompted prompt (waiting.prompts hprompt)
    rw [service.command] at hcurrent
    exact absurd hcurrent (h.objects.scan_older (waiting.scans hpending) rfl)
  | changed service =>
    refine h.unapproved_of hact service.approval (fun pending hpending hcurrent => ?_) h.prompted
    rw [service.command] at hcurrent
    exact absurd hcurrent (h.objects.scan_older hpending rfl)
  | prompted current pages =>
    refine h.unapproved_of hact rfl h.unscanned fun prompt hprompt => ?_
    rcases List.mem_append.mp hprompt with hbefore | hnew
    · exact h.prompted prompt hbefore
    · cases List.mem_singleton.mp hnew
      exact pages
  | @approved t attempt held approval hprompted current ready drawn expires service waiting
      _ _ issued =>
    have hready : s.service.scan ≠ none := by
      intro hnone
      rw [Service.ready, hnone] at ready
      cases ready
    refine ⟨objects_act h.objects hact, fun pending hpending hcurrent => ?_, fun hnone => ?_,
      fun prompt hprompt => h.prompted prompt (waiting.prompts hprompt), fun other hother => ?_⟩
    · rw [service] at hcurrent
      exact absurd (h.unscanned pending (waiting.scans hpending) hcurrent) hready
    · rw [service] at hnone
      exact absurd hnone hready
    · rw [service] at hother
      cases hother
      -- the serial number says that the prompted object is still the current one
      obtain ⟨now, hnow, hserial⟩ := Option.map_eq_some_iff.mp current
      cases h.objects.same now held (Or.inl hnow) (Or.inr (Or.inr ⟨attempt, hprompted⟩)) hserial
      refine ⟨held, ?_, ?_, expires, h.prompted _ hprompted⟩
      · rw [service]
        exact hnow
      · rw [issued, List.getLast?_concat]

theorem sound_initial : Sound {} where
  objects := ⟨fun _ h => by simp [System.Holds] at h, fun _ _ h => by simp [System.Holds] at h⟩
  unscanned := nofun
  unapproved _ := rfl
  prompted := nofun
  approved := nofun

structure Drawn (uuid : ℕ → UUID) (s : System) : Prop where
  issued : ∀ entry ∈ s.issued, ∃ i < s.service.draws, entry.1.approvalId = uuid i

structure Since (uuid : ℕ → UUID) (start : ℕ) (s : System) : Prop where
  later : start ≤ s.service.draws
  approved : ∀ approval, s.service.approval = some approval →
    ∃ i, start ≤ i ∧ i < s.service.draws ∧ approval.approvalId = uuid i

theorem draws_act {s t : System} (h : Acts uuid call s t) : s.service.draws ≤ t.service.draws := by
  cases h with
  | quiet service _ _ _ _ => exact service.draws
  | listed _ => exact Nat.le_refl _
  | previewed _ _ => exact Nat.le_refl _
  | emptied service => exact service.draws
  | rescanned service => exact service.draws
  | filled service _ _ _ _ _ => exact service.draws
  | changed service => exact service.draws
  | prompted _ _ => exact Nat.le_refl _
  | approved _ _ _ _ _ service _ _ _ _ =>
    rw [service]
    exact Nat.le_succ _

theorem drawn_act {s t : System} (h : Drawn uuid s) (hact : Acts uuid call s t) : Drawn uuid t := by
  have hdraws := draws_act hact
  have hkept : t.issued = s.issued → Drawn uuid t := fun hissued => ⟨fun entry hentry => by
    obtain ⟨i, hi, hid⟩ := h.issued entry (hissued ▸ hentry)
    exact ⟨i, Nat.lt_of_lt_of_le hi hdraws, hid⟩⟩
  cases hact with
  | quiet _ _ _ _ issued => exact hkept issued
  | listed _ => exact hkept rfl
  | previewed _ _ => exact hkept rfl
  | emptied _ => exact hkept rfl
  | rescanned _ => exact hkept rfl
  | filled _ _ _ _ _ issued => exact hkept issued
  | changed _ => exact hkept rfl
  | prompted _ _ => exact hkept rfl
  | approved _ _ _ drawn _ service _ _ _ issued =>
    constructor
    intro entry hentry
    rw [issued] at hentry
    rcases List.mem_append.mp hentry with hbefore | hnew
    · obtain ⟨i, hi, hid⟩ := h.issued entry hbefore
      exact ⟨i, Nat.lt_of_lt_of_le hi hdraws, hid⟩
    · cases List.mem_singleton.mp hnew
      refine ⟨s.service.draws, ?_, drawn⟩
      rw [service]
      exact Nat.lt_succ_self _

theorem since_act {start : ℕ} {s t : System} (h : Since uuid start s) (hact : Acts uuid call s t) :
    Since uuid start t := by
  have hdraws := draws_act hact
  have hkept : t.service.approval = s.service.approval → Since uuid start t := fun hsame =>
    ⟨h.later.trans hdraws, fun approval hsome => by
      obtain ⟨i, hstart, hi, hid⟩ := h.approved approval (hsame ▸ hsome)
      exact ⟨i, hstart, Nat.lt_of_lt_of_le hi hdraws, hid⟩⟩
  have hgone : t.service.approval = none → Since uuid start t := fun hnone =>
    ⟨h.later.trans hdraws, fun approval hsome => by cases hnone.symm.trans hsome⟩
  cases hact with
  | quiet service _ _ _ _ => exact hkept service.approval
  | listed _ => exact hkept rfl
  | previewed _ _ => exact hkept rfl
  | emptied service => exact hgone service.approval
  | rescanned service => exact hgone service.approval
  | filled service _ _ _ _ _ => exact hkept service.approval
  | changed service => exact hgone service.approval
  | prompted _ _ => exact hgone rfl
  | approved _ _ _ drawn _ service _ _ _ _ =>
    refine ⟨h.later.trans hdraws, fun other hother => ?_⟩
    rw [service] at hother ⊢
    cases hother
    exact ⟨s.service.draws, h.later, Nat.lt_succ_self _, drawn⟩

/-- The calls that revoke: every rescan and close, an accepted change, and a confirmation that
gets as far as its prompt, whatever the human then answers. -/
def Call.Revokes (uuid : ℕ → UUID) (digest : PrivacyReviewCommand → Digest) (s : Service) :
    Call → Prop
  | .rescan _ _ _ => True
  | .close => True
  | .add request region category ambient =>
    (s.add uuid digest request region category ambient).1.isOk = true
  | .edit request candidateId region category entityId ambient =>
    (s.edit uuid digest request candidateId region category entityId ambient).1.isOk = true
  | .remove request candidateId reason ambient =>
    (s.remove digest request candidateId reason ambient).1.isOk = true
  | .reviewPage request page ambient => (s.reviewPage digest request page ambient).1.isOk = true
  | .confirm request reviewDigest => (s.confirm digest request reviewDigest).1.isOk = true
  | _ => False

theorem Service.Edits.revoked {s : Service}
    {reply : Except PrivacyErrorCode PrivacyReviewView × Service} (h : s.Edits reply)
    (haccepted : reply.1.isOk = true) : reply.2.approval = none := by
  rcases h with ⟨code, hcode, -⟩ | ⟨held, view, -, hchanged⟩
  · rw [hcode] at haccepted
    cases haccepted
  · exact hchanged.approval

theorem revoked_step {s : System} (h : call.Revokes uuid digest s.service) :
    (s.step uuid digest call).service.approval = none := by
  cases call with
  | rescan source policyDigest ambient =>
    rcases s.service.rescan_effect source policyDigest ambient with
      ⟨code, v, hreply, hemptied⟩ | ⟨fresh, v, hreply, hrescanned⟩
    · simp only [System.step, System.rescan, hreply]
      exact hemptied.approval
    · simp only [System.step, System.rescan, hreply]
      exact hrescanned.approval
  | add request region category ambient =>
    exact (Service.add_edits s.service request region category ambient).revoked h
  | edit request candidateId region category entityId ambient =>
    exact (Service.edit_edits s.service request candidateId region category entityId
      ambient).revoked h
  | remove request candidateId reason ambient =>
    exact (Service.remove_edits s.service request candidateId reason ambient).revoked h
  | reviewPage request page ambient =>
    exact (Service.reviewPage_edits s.service request page ambient).revoked h
  | confirm request reviewDigest =>
    rcases @Service.confirm_effect digest s.service request reviewDigest with
      ⟨code, hreply⟩ | ⟨held, -, -, hreply⟩
    · rw [Call.Revokes, hreply] at h
      cases h
    · simp only [System.step, System.confirm, hreply]
  | close => rfl
  | scanned _ _ _ => exact h.elim
  | preview _ _ _ => exact h.elim
  | answered _ _ _ => exact h.elim
  | list _ => exact h.elim
  | permits _ _ _ _ => exact h.elim

/-- What a permission to use the approval rests on. -/
structure Exact (s : System) (approval : LocalPrivacyApproval) (command : PrivacyReviewCommand)
    (now clock : Int) : Prop where
  latest : s.issued.getLast? = some (approval, command)
  current : s.service.command.map Held.command = some command
  pages : ∀ page ∈ command.source.pages, page.number ∈ command.reviewedPages
  scan : ∃ scan, s.service.scan = some scan ∧ scan.blocked = false
  window : approval.approvedAt ≤ now ∧ now < approval.approvedAt + lifetime
  clocked : approval.approvedAt ≤ clock ∧ clock < approval.approvedAt + lifetime

theorem permits_exact {s : System} (h : Sound s) {approval : LocalPrivacyApproval}
    {command : PrivacyReviewCommand} {now : Int} {ambient : Ambient}
    (hpermits : s.service.permits digest approval command now ambient = true) :
    Exact s approval command now ambient.clock := by
  simp only [Service.permits, Bool.and_eq_true, decide_eq_true_eq] at hpermits
  obtain ⟨⟨⟨⟨⟨⟨hready, -⟩, happroval⟩, hcommand⟩, -⟩, hnow⟩, hclock⟩ := hpermits
  obtain ⟨held, hstands⟩ := h.approved approval happroval
  have hheld : held.command = command := by
    rw [hstands.current] at hcommand
    exact Option.some.inj hcommand
  have hscan : ∃ scan, s.service.scan = some scan ∧ scan.blocked = false := by
    unfold Service.ready at hready
    cases hsome : s.service.scan with
    | none =>
      rw [hsome] at hready
      cases hready
    | some scan =>
      rw [hsome] at hready
      exact ⟨scan, rfl, by simpa using hready⟩
  subst hheld
  refine ⟨hstands.latest, hcommand, fun page hpage => ?_, hscan,
    hstands.window ▸ hnow, hstands.window ▸ hclock⟩
  rw [hstands.pages]
  exact List.mem_map_of_mem hpage

/-- An approval is permitted only as the latest one, for the reviewed and scanned command that
the human saw, and never again once anything has revoked it. -/
theorem approval_exact_revocable (uuid : ℕ → UUID) (digest : PrivacyReviewCommand → Digest)
    (calls : List Call)
    (hdraws : Set.InjOn uuid (Set.Iio ((System.run uuid digest calls {}).service.draws))) :
    (∀ approval command now ambient,
      (System.run uuid digest calls {}).service.permits digest approval command now ambient = true →
        Exact (System.run uuid digest calls {}) approval command now ambient.clock) ∧
    ∀ before call after, calls = before ++ call :: after →
      call.Revokes uuid digest (System.run uuid digest before {}).service →
      ∀ entry ∈ (System.run uuid digest before {}).issued, ∀ command now ambient,
        (System.run uuid digest calls {}).service.permits digest entry.1 command now ambient =
          false := by
  refine ⟨fun approval command now ambient hpermits =>
    permits_exact (System.run_keeps (fun _ _ _ => sound_act) calls sound_initial) hpermits, ?_⟩
  rintro before call after rfl hrevokes entry hentry command now ambient
  set s := System.run uuid digest before {} with hs
  have hdrawn : Drawn uuid s := System.run_keeps (fun _ _ _ => drawn_act) before ⟨nofun⟩
  have hfinal : System.run uuid digest (before ++ call :: after) {} =
      System.run uuid digest after (s.step uuid digest call) := by
    rw [System.run, List.foldl_append, List.foldl_cons]
    rfl
  have hstart : Since uuid s.service.draws (s.step uuid digest call) :=
    ⟨draws_act (System.step_acts s call), fun approval hsome => by
      cases (revoked_step hrevokes).symm.trans hsome⟩
  have hsince : Since uuid s.service.draws (System.run uuid digest after (s.step uuid digest call)) :=
    System.run_keeps (fun _ _ _ => since_act) after hstart
  rw [hfinal] at hdraws ⊢
  rw [Bool.eq_false_iff]
  intro hpermits
  simp only [Service.permits, Bool.and_eq_true, decide_eq_true_eq] at hpermits
  obtain ⟨i, hi, hid⟩ := hdrawn.issued entry hentry
  obtain ⟨j, hj, hlast, hid'⟩ := hsince.approved entry.1 hpermits.1.1.1.1.2
  have hij : i = j := hdraws (Set.mem_Iio.mpr (hi.trans (hj.trans_lt hlast)))
    (Set.mem_Iio.mpr hlast) (hid.symm.trans hid')
  omega

theorem sampleDigest_text : digestText (String.ofList (List.replicate 64 'a')) = true := by
  decide +kernel

def sampleDigest : Digest := ⟨String.ofList (List.replicate 64 'a'), sampleDigest_text⟩

def sampleBox : Box := ⟨zero64, zero64, one64, one64⟩

def sampleSource : LocalSourceSnapshot where
  caseId := ⟨1⟩
  documentId := ⟨2⟩
  snapshotId := ⟨3⟩
  sourceRevision := 1
  sourceDigest := sampleDigest
  byteSize := 1
  pages := [⟨1, one64, one64, 0, sampleBox⟩]
  pageSequence := rfl

def sampleReport : PrivacyScanReport where
  source := sampleSource
  blocked := false
  candidates := [Service.manualCandidate ⟨4⟩ ⟨5⟩ .name ⟨1, sampleBox, numbered_from_one⟩]
  distinct := by decide
  within := by decide +kernel

def sampleAmbient : Ambient := ⟨true, 0, 0⟩

def sampleVersion (revision : ℕ) : ReviewVersion := ⟨⟨1⟩, ⟨3⟩, revision⟩

def sampleReview : List Call := [
  .rescan sampleSource sampleDigest sampleAmbient, .scanned 0 (some sampleReport) sampleAmbient,
  .preview (sampleVersion 1) 1 sampleAmbient, .reviewPage (sampleVersion 1) 1 sampleAmbient,
  .confirm (sampleVersion 2) sampleDigest, .answered 0 (some "reviewer") sampleAmbient]

def sampleSystem : System := System.run UUID.mk (fun _ => sampleDigest) sampleReview {}

/-- The one approval of the review is permitted for what was reviewed, until the service is closed. -/
theorem approval_exact_revocable_sample : sampleSystem.issued.length = 1 ∧
    ∀ entry ∈ sampleSystem.issued,
      (sampleSystem.service.permits (fun _ => sampleDigest) entry.1 entry.2 0 sampleAmbient = true ∧
        Exact sampleSystem entry.1 entry.2 0 sampleAmbient.clock) ∧
      ∀ command now ambient, (sampleSystem.step UUID.mk (fun _ => sampleDigest) .close).service.permits
        (fun _ => sampleDigest) entry.1 command now ambient = false := by
  have hdraws (n : ℕ) : Set.InjOn UUID.mk (Set.Iio n) := fun i _ j _ h => UUID.mk.inj h
  have hpermits : ∀ entry ∈ sampleSystem.issued, sampleSystem.service.permits
      (fun _ => sampleDigest) entry.1 entry.2 0 sampleAmbient = true := by decide +kernel
  refine ⟨by decide +kernel, fun entry hentry => ⟨⟨hpermits entry hentry, ?_⟩, ?_⟩⟩
  · exact (approval_exact_revocable UUID.mk (fun _ => sampleDigest) sampleReview (hdraws _)).1
      entry.1 entry.2 0 sampleAmbient (hpermits entry hentry)
  · intro command now ambient
    have h := (approval_exact_revocable UUID.mk (fun _ => sampleDigest) (sampleReview ++ [.close])
      (hdraws _)).2 sampleReview .close [] rfl trivial entry hentry command now ambient
    rw [System.run, List.foldl_append] at h
    exact h

end AppraisalReview.PrivacyReview
