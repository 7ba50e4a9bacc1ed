import AppraisalReview.PrivacyApproval

set_option autoImplicit false

/-!
# What a privacy review revision names

A change takes a new revision for its command. The answer of a scan does not: it
puts the selections of the scan under the revision that the service has shown
since the rescan began. Where nothing of that revision was seen before the
answer, or the scan found nothing, a revision names one set of selections.
-/
namespace AppraisalReview.PrivacyReview
variable {uuid : ℕ → UUID} {digest : PrivacyReviewCommand → Digest} {call : Call}

namespace PrivacyReviewCommand

/-- What `_check` compares. -/
def version (command : PrivacyReviewCommand) : UUID × UUID × ℕ :=
  (command.source.caseId, command.source.snapshotId, command.selectionRevision)

def SameContent (a b : PrivacyReviewCommand) : Prop :=
  a.selections = b.selections ∧ a.reviewedPages = b.reviewedPages

theorem SameContent.symm {a b : PrivacyReviewCommand} (h : a.SameContent b) : b.SameContent a :=
  ⟨h.1.symm, h.2.symm⟩

theorem SameContent.trans {a b c : PrivacyReviewCommand} (h : a.SameContent b)
    (h' : b.SameContent c) : a.SameContent c :=
  ⟨h.1.trans h'.1, h.2.trans h'.2⟩

end PrivacyReviewCommand

/-- The page was shown while these selections of the source were the service's. -/
def System.ShownWith (s : System) (command : PrivacyReviewCommand) (page : ℕ) : Prop :=
  ∃ seen, (page, seen) ∈ s.shown ∧ seen.source = command.source ∧
    seen.selections = command.selections

structure Named (s : System) : Prop where
  past : ∀ seen ∈ s.exposed, seen.selectionRevision ≤ s.service.revision
  agree : ∀ seen ∈ s.exposed, ∀ other ∈ s.exposed,
    seen.selectionRevision = other.selectionRevision → seen.SameContent other
  present : ∀ held, s.service.command = some held → ∀ seen ∈ s.exposed,
    seen.selectionRevision = held.command.selectionRevision → seen.SameContent held.command
  counted : ∀ held, s.service.command = some held →
    held.command.selectionRevision ≤ s.service.revision
  bare : ∀ pending ∈ s.scans,
    pending.command.selections = [] ∧ pending.command.reviewedPages = []
  previewed : ∀ held, s.service.command = some held → ∀ page ∈ s.service.previewed,
    s.ShownWith held.command page
  reviewed : ∀ held, s.service.command = some held → ∀ page ∈ held.command.reviewedPages,
    s.ShownWith held.command page

theorem Named.expose {s : System} (h : Named s) {held : Held}
    (hcurrent : s.service.command = some held) :
    ∀ seen ∈ s.exposed ++ [held.command], ∀ other ∈ s.exposed ++ [held.command],
      seen.selectionRevision = other.selectionRevision → seen.SameContent other := by
  intro seen hseen other hother hrevision
  rcases List.mem_append.mp hseen with hbefore | hnew <;>
    rcases List.mem_append.mp hother with hbefore' | hnew'
  · exact h.agree seen hbefore other hbefore' hrevision
  · cases List.mem_singleton.mp hnew'
    exact h.present held hcurrent seen hbefore hrevision
  · cases List.mem_singleton.mp hnew
    exact (h.present held hcurrent other hbefore' hrevision.symm).symm
  · cases List.mem_singleton.mp hnew
    cases List.mem_singleton.mp hnew'
    exact ⟨rfl, rfl⟩

theorem Named.exposed {s t : System} (h : Named s) {held : Held}
    (hcurrent : s.service.command = some held) (hcommand : t.service.command = s.service.command)
    (hrevision : t.service.revision = s.service.revision)
    (hpreviewed : t.service.previewed = s.service.previewed) (hscans : t.scans = s.scans)
    (hexposed : t.exposed = s.exposed ++ [held.command]) (hshown : t.shown = s.shown) :
    Named t where
  past seen hseen := by
    rw [hrevision]
    rw [hexposed] at hseen
    rcases List.mem_append.mp hseen with hbefore | hnew
    · exact h.past seen hbefore
    · cases List.mem_singleton.mp hnew
      exact h.counted held hcurrent
  agree := hexposed ▸ h.expose hcurrent
  present current hcommand' seen hseen hequal := by
    rw [hcommand, hcurrent] at hcommand'
    cases hcommand'
    exact h.expose hcurrent seen (hexposed ▸ hseen) held.command
      (List.mem_append_right _ (List.mem_singleton_self _)) hequal
  counted current hcommand' := hrevision ▸ h.counted current (hcommand ▸ hcommand')
  bare pending hpending := h.bare pending (hscans ▸ hpending)
  previewed current hcommand' page hpage := by
    rw [System.ShownWith, hshown]
    exact h.previewed current (hcommand ▸ hcommand') page (hpreviewed ▸ hpage)
  reviewed current hcommand' page hpage := by
    rw [System.ShownWith, hshown]
    exact h.reviewed current (hcommand ▸ hcommand') page hpage

theorem Named.renewed {s t : System} (h : Named s) {fresh : Held}
    (hcommand : t.service.command = some fresh)
    (hnumber : fresh.command.selectionRevision = s.service.revision + 1)
    (hrevision : t.service.revision = s.service.revision + 1)
    (hexposed : t.exposed = s.exposed ∨ t.exposed = s.exposed ++ [fresh.command])
    (hbare : ∀ pending ∈ t.scans,
      pending.command.selections = [] ∧ pending.command.reviewedPages = [])
    (hpreviewed : ∀ page ∈ t.service.previewed, t.ShownWith fresh.command page)
    (hreviewed : ∀ page ∈ fresh.command.reviewedPages, t.ShownWith fresh.command page) :
    Named t := by
  have hmember : ∀ seen ∈ t.exposed, seen ∈ s.exposed ∨ seen = fresh.command := by
    intro seen hseen
    rcases hexposed with hsame | hmore
    · exact Or.inl (hsame ▸ hseen)
    · rw [hmore] at hseen
      rcases List.mem_append.mp hseen with hbefore | hnew
      · exact Or.inl hbefore
      · exact Or.inr (List.mem_singleton.mp hnew)
  have hold : ∀ seen ∈ s.exposed, seen.selectionRevision ≠ fresh.command.selectionRevision := by
    intro seen hseen
    have := h.past seen hseen
    omega
  refine ⟨fun seen hseen => ?_, fun seen hseen other hother hequal => ?_,
    fun held hheld seen hseen hequal => ?_, fun held hheld => ?_, hbare, fun held hheld => ?_,
    fun held hheld => ?_⟩
  · rcases hmember seen hseen with hbefore | rfl
    · have := h.past seen hbefore
      omega
    · omega
  · rcases hmember seen hseen with hbefore | rfl <;> rcases hmember other hother with hbefore' | rfl
    · exact h.agree seen hbefore other hbefore' hequal
    · exact absurd hequal (hold seen hbefore)
    · exact absurd hequal.symm (hold other hbefore')
    · exact ⟨rfl, rfl⟩
  · cases hcommand.symm.trans hheld
    rcases hmember seen hseen with hbefore | rfl
    · exact absurd hequal (hold seen hbefore)
    · exact ⟨rfl, rfl⟩
  · cases hcommand.symm.trans hheld
    omega
  · cases hcommand.symm.trans hheld
    exact hpreviewed
  · cases hcommand.symm.trans hheld
    exact hreviewed

/-- The scan answers for the command that is still current, and changes nothing that was seen: it
found nothing, or the revision was neither exposed nor previewed since the rescan. -/
def Call.Unseen (s : System) : Call → Prop
  | .scanned waiting (some report) _ => ∀ pending, s.scans[waiting]? = some pending →
    report.source = pending.command.source →
    s.service.command.map Held.serial = some pending.serial →
    report.candidates = [] ∨
      ((∀ seen ∈ s.exposed, seen.selectionRevision ≠ pending.command.selectionRevision) ∧
        s.service.previewed = [])
  | _ => True

theorem Named.answered {s t : System} (h : Named s) {pending : Held} {report : PrivacyScanReport}
    {fresh : PrivacyReviewCommand} (service : Filled s.service t.service pending report fresh)
    (hcurrent : s.service.command = some pending)
    (hbare : pending.command.selections = [] ∧ pending.command.reviewedPages = [])
    (hunseen : report.candidates = [] ∨
      ((∀ seen ∈ s.exposed, seen.selectionRevision ≠ pending.command.selectionRevision) ∧
        s.service.previewed = []))
    (hbares : ∀ other ∈ t.scans, other.command.selections = [] ∧ other.command.reviewedPages = [])
    (hexposed : t.exposed = s.exposed ++ [fresh]) (hshown : t.shown = s.shown) : Named t := by
  have hpages : fresh.reviewedPages = [] := service.pages.trans hbare.2
  have hempty : report.candidates = [] → fresh.selections = [] := fun hnil =>
    List.map_eq_nil_iff.mp (service.selections.trans hnil)
  have hsame : ∀ seen ∈ s.exposed, seen.selectionRevision = fresh.selectionRevision →
      seen.SameContent fresh := by
    intro seen hseen hequal
    rcases hunseen with hnil | ⟨hnone, -⟩
    · exact (h.present pending hcurrent seen hseen (hequal.trans service.number)).trans
        ⟨hbare.1.trans (hempty hnil).symm, service.pages.symm⟩
    · exact absurd (hequal.trans service.number) (hnone seen hseen)
  have hmember : ∀ seen ∈ t.exposed, seen ∈ s.exposed ∨ seen = fresh := fun seen hseen => by
    rw [hexposed] at hseen
    rcases List.mem_append.mp hseen with hbefore | hnew
    · exact Or.inl hbefore
    · exact Or.inr (List.mem_singleton.mp hnew)
  have hcounted : fresh.selectionRevision ≤ t.service.revision := by
    rw [service.number, service.revision]
    exact h.counted pending hcurrent
  refine ⟨fun seen hseen => ?_, fun seen hseen other hother hequal => ?_,
    fun held hheld seen hseen hequal => ?_, fun held hheld => ?_, hbares,
    fun held hheld page hpage => ?_, fun held hheld page hpage => ?_⟩
  · rcases hmember seen hseen with hbefore | rfl
    · exact service.revision ▸ h.past seen hbefore
    · exact hcounted
  · rcases hmember seen hseen with hbefore | rfl <;> rcases hmember other hother with hbefore' | rfl
    · exact h.agree seen hbefore other hbefore' hequal
    · exact hsame seen hbefore hequal
    · exact (hsame other hbefore' hequal.symm).symm
    · exact ⟨rfl, rfl⟩
  · cases service.command.symm.trans hheld
    rcases hmember seen hseen with hbefore | rfl
    · exact hsame seen hbefore hequal
    · exact ⟨rfl, rfl⟩
  · cases service.command.symm.trans hheld
    exact hcounted
  · cases service.command.symm.trans hheld
    rcases hunseen with hnil | ⟨-, hnone⟩
    · obtain ⟨seen, hseen, hsource, hselections⟩ :=
        h.previewed pending hcurrent page (service.previewed ▸ hpage)
      exact ⟨seen, hshown ▸ hseen, hsource.trans service.source.symm,
        hselections.trans (hbare.1.trans (hempty hnil).symm)⟩
    · rw [service.previewed, hnone] at hpage
      cases hpage
  · cases service.command.symm.trans hheld
    rw [show fresh.reviewedPages = [] from hpages] at hpage
    cases hpage

theorem named_act {s t : System} (hobjects : Objects s) (h : Named s) (hunseen : call.Unseen s)
    (hact : Acts uuid call s t) : Named t := by
  cases hact with
  | quiet service waiting exposed shown _ =>
    refine ⟨fun seen hseen => (h.past seen (exposed ▸ hseen)).trans service.revision,
      exposed ▸ h.agree, fun held hheld => exposed ▸ h.present held (service.command ▸ hheld),
      fun held hheld => (h.counted held (service.command ▸ hheld)).trans service.revision,
      fun pending hpending => h.bare pending (waiting.scans hpending), fun held hheld page hpage => ?_,
      fun held hheld page hpage => ?_⟩
    · rw [System.ShownWith, shown]
      exact h.previewed held (service.command ▸ hheld) page (service.previewed ▸ hpage)
    · rw [System.ShownWith, shown]
      exact h.reviewed held (service.command ▸ hheld) page hpage
  | listed current => exact h.exposed current rfl rfl rfl rfl rfl rfl
  | prompted current pages => exact h.exposed current rfl rfl rfl rfl rfl rfl
  | @previewed held page current =>
    have hmore : ∀ {command : PrivacyReviewCommand} {p : ℕ}, s.ShownWith command p →
        System.ShownWith { s with
          service := { s.service with previewed := page :: s.service.previewed }
          shown := s.shown ++ [(page, held.command)] } command p :=
      fun ⟨seen, hseen, hsame⟩ => ⟨seen, List.mem_append_left _ hseen, hsame⟩
    refine ⟨h.past, h.agree, h.present, h.counted, h.bare, fun now hnow p hp => ?_,
      fun now hnow p hp => hmore (h.reviewed now hnow p hp)⟩
    rcases List.mem_cons.mp hp with rfl | hbefore
    · cases current.symm.trans hnow
      exact ⟨held.command, List.mem_append_right _ (List.mem_singleton_self _), rfl, rfl⟩
    · exact hmore (h.previewed now hnow p hbefore)
  | emptied service =>
    have hnone : ∀ {held}, ¬ (_ = some held) := fun hheld => by cases service.command.symm.trans hheld
    exact ⟨fun seen hseen => (h.past seen hseen).trans service.revision, h.agree,
      fun _ hheld => (hnone hheld).elim, fun _ hheld => (hnone hheld).elim, h.bare,
      fun _ hheld => (hnone hheld).elim, fun _ hheld => (hnone hheld).elim⟩
  | rescanned service =>
    refine h.renewed service.command (service.number.trans service.revision) service.revision
      (Or.inl rfl) (fun pending hpending => ?_) (fun page hpage => ?_) fun page hpage => ?_
    · rcases List.mem_append.mp hpending with hbefore | hnew
      · exact h.bare pending hbefore
      · cases List.mem_singleton.mp hnew
        exact service.bare
    · rw [service.previewed] at hpage
      cases hpage
    · rw [service.bare.2] at hpage
      cases hpage
  | @filled t pending report fresh service asked waiting exposed shown _ =>
    obtain ⟨index, ambient, rfl, hwaits⟩ := asked
    have hpending := List.mem_of_getElem? hwaits
    obtain ⟨now, hnow, hserial⟩ := Option.map_eq_some_iff.mp service.current
    cases hobjects.same now pending (Or.inl hnow) (Or.inr (Or.inl hpending)) hserial
    exact h.answered service hnow (h.bare pending hpending)
      (hunseen pending hwaits service.origin service.current)
      (fun other hother => h.bare other (waiting.scans hother)) exposed shown
  | @changed v held fresh service =>
    refine h.renewed service.command service.number service.revision (Or.inr rfl) h.bare
      (fun page hpage => ?_) fun page hpage => ?_
    · rcases service.pages with ⟨-, hcleared⟩ | ⟨hselections, hpreviewed, -⟩
      · rw [hcleared] at hpage
        cases hpage
      · obtain ⟨seen, hseen, hsource, hsame⟩ :=
          h.previewed held service.current page (hpreviewed ▸ hpage)
        exact ⟨seen, hseen, hsource.trans service.source.symm, hsame.trans hselections.symm⟩
    · rcases service.pages with ⟨hnil, -⟩ | ⟨hselections, -, hfrom⟩
      · rw [hnil] at hpage
        cases hpage
      · have hshown : s.ShownWith held.command page := by
          rcases hfrom page hpage with hbefore | hpreviewed
          · exact h.reviewed held service.current page hbefore
          · exact h.previewed held service.current page hpreviewed
        obtain ⟨seen, hseen, hsource, hsame⟩ := hshown
        exact ⟨seen, hseen, hsource.trans service.source.symm, hsame.trans hselections.symm⟩
  | approved prompted current ready drawn expires service waiting exposed shown _ =>
    refine ⟨fun seen hseen => ?_, exposed ▸ h.agree, fun held hheld => ?_, fun held hheld => ?_,
      fun pending hpending => h.bare pending (waiting.scans hpending), fun held hheld page hpage => ?_,
      fun held hheld page hpage => ?_⟩
    · rw [service]
      exact h.past seen (exposed ▸ hseen)
    · rw [service] at hheld
      exact exposed ▸ h.present held hheld
    · rw [service] at hheld ⊢
      exact h.counted held hheld
    · rw [service] at hheld hpage
      rw [System.ShownWith, shown]
      exact h.previewed held hheld page hpage
    · rw [service] at hheld
      rw [System.ShownWith, shown]
      exact h.reviewed held hheld page hpage

/-- No scan of the run answers under a revision that was seen. -/
def UnseenRun (uuid : ℕ → UUID) (digest : PrivacyReviewCommand → Digest) : List Call → System → Prop
  | [], _ => True
  | call :: rest, s => call.Unseen s ∧ UnseenRun uuid digest rest (s.step uuid digest call)

theorem named_run (calls : List Call) {s : System} (hobjects : Objects s) (h : Named s)
    (hunseen : UnseenRun uuid digest calls s) : Named (s.run uuid digest calls) := by
  induction calls generalizing s with
  | nil => exact h
  | cons call rest ih =>
    have hact := @System.step_acts uuid digest s call
    exact ih (objects_act hobjects hact) (named_act hobjects h hunseen.1 hact) hunseen.2

/-- A revision names one set of selections, and the reviewed pages were seen with it. -/
structure RevisionNamed (s : System) : Prop where
  exposed : ∀ seen ∈ s.exposed, ∀ other ∈ s.exposed, seen.version = other.version →
    seen.SameContent other
  reviewed : ∀ held, s.service.command = some held → ∀ page ∈ held.command.reviewedPages,
    s.ShownWith held.command page
  accepted : ∀ request held, s.service.check request = .ok held → ∀ seen ∈ s.exposed,
    seen.version = (request.caseId, request.snapshotId, request.revision) →
    seen.SameContent held.command

theorem Service.check_version {s : Service} {request : ReviewVersion} {held : Held}
    (h : s.check request = .ok held) : s.command = some held ∧
      held.command.selectionRevision = request.revision := by
  refine ⟨check_ok h, ?_⟩
  rw [check, check_ok h] at h
  simp only at h
  split_ifs at h with hstale
  exact (by_contra fun hne => hstale (Or.inr (Or.inr (Ne.symm hne))))

theorem revision_named (calls : List Call) (hunseen : UnseenRun uuid digest calls {}) :
    RevisionNamed (System.run uuid digest calls {}) := by
  have hstart : Named {} :=
    ⟨nofun, nofun, nofun, nofun, nofun, nofun, nofun⟩
  have h := named_run calls sound_initial.objects hstart hunseen
  refine ⟨fun seen hseen other hother hversion => ?_, h.reviewed,
    fun request held haccepted seen hseen hversion => ?_⟩
  · exact h.agree seen hseen other hother (congrArg (·.2.2) hversion)
  · obtain ⟨hcurrent, hrevision⟩ := Service.check_version haccepted
    exact h.present held hcurrent seen hseen ((congrArg (·.2.2) hversion).trans hrevision.symm)

/-- A scan that answers before anything was seen. -/
theorem revision_named_sample : RevisionNamed sampleSystem := by
  apply revision_named
  have hnone : (System.run UUID.mk (fun _ => sampleDigest) (sampleReview.take 1) {}).exposed = [] := by
    decide +kernel
  refine ⟨trivial, fun pending _ _ _ => Or.inr ⟨?_, by decide +kernel⟩, trivial, trivial, trivial,
    trivial, trivial⟩
  exact fun seen hseen => absurd (hnone ▸ hseen) (by simp)

def earlyLook : List Call := [
  .rescan sampleSource sampleDigest sampleAmbient, .list sampleAmbient,
  .scanned 0 (some sampleReport) sampleAmbient]

/-- The two commands that left the service have one version and different selections. -/
theorem revision_names_two : ¬ ∀ calls : List Call,
    RevisionNamed (System.run UUID.mk (fun _ => sampleDigest) calls {}) := by
  intro h
  have hexposed : ∃ seen ∈ (System.run UUID.mk (fun _ => sampleDigest) earlyLook {}).exposed,
      ∃ other ∈ (System.run UUID.mk (fun _ => sampleDigest) earlyLook {}).exposed,
        seen.version = other.version ∧ seen.selections ≠ other.selections := by
    decide +kernel
  obtain ⟨seen, hseen, other, hother, hversion, hdiffer⟩ := hexposed
  exact hdiffer ((h earlyLook).exposed seen hseen other hother hversion).1

end AppraisalReview.PrivacyReview
