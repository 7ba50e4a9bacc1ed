import AppraisalReview.ResultPublication

set_option autoImplicit false

/-!
# Bodies left behind by dead attempts

A stored body pins its digest for good, whether or not a reference was ever
committed for it. A live attempt can publish exactly when its own body has the
digest that is pinned already, or nothing is stored yet.
-/
namespace AppraisalReview.MemoryJobStore

variable {contentDigest : ServiceResult → Digest} {sha256 : String → Digest} {policy : JobPolicy}
variable {s : Store} {p : Plane}

def jobOp : Call → Option Op
  | .job op => some op
  | .stage _ _ => none

def stagedBody : Call → Option ServiceResult
  | .job _ => none
  | .stage _ result => some result

def jobOps (calls : List Call) : List Op := calls.filterMap jobOp

def stagedBodies (calls : List Call) : List ServiceResult := calls.filterMap stagedBody

theorem stage_jobs (attempt : ClaimedAttempt) (result : ServiceResult) (p : Plane) :
    (stage contentDigest attempt result p).2.jobs = p.jobs := by
  unfold stage
  split <;> rfl

variable (contentDigest sha256 policy) in
theorem Plane.run_jobs (p : Plane) (calls : List Call) :
    (p.run contentDigest sha256 policy calls).jobs =
      MemoryJobStore.run sha256 policy p.jobs (jobOps calls) := by
  induction calls generalizing p with
  | nil => rfl
  | cons call calls ih =>
    rw [Plane.run, List.foldl_cons]
    change ((Plane.step contentDigest sha256 policy p call).run contentDigest sha256 policy
      calls).jobs = _
    rw [ih]
    cases call with
    | job op => rfl
    | stage attempt result =>
      rw [show jobOps (Call.stage attempt result :: calls) = jobOps calls from rfl]
      congr 1
      exact stage_jobs ..

variable (contentDigest sha256 policy) in
theorem Plane.run_append (p : Plane) (xs ys : List Call) :
    p.run contentDigest sha256 policy (xs ++ ys) =
      (p.run contentDigest sha256 policy xs).run contentDigest sha256 policy ys :=
  List.foldl_append ..

/-- The body under the key has this digest, and is this body or one of the given ones. -/
def Pins (contentDigest : ServiceResult → Digest) (p : Plane) (key : UUID × ℕ)
    (body : ServiceResult) (bodies : List ServiceResult) : Prop :=
  ∃ stored, p.bodies.get? key = some stored ∧ contentDigest stored = contentDigest body ∧
    (stored = body ∨ stored ∈ bodies)

variable (contentDigest) in
theorem stage_keeps (attempt : ClaimedAttempt) (result : ServiceResult) {stored : ServiceResult}
    {key : UUID × ℕ} (h : p.bodies.get? key = some stored) :
    ∃ stored', (stage contentDigest attempt result p).2.bodies.get? key = some stored' ∧
      contentDigest stored' = contentDigest stored ∧ (stored' = stored ∨ stored' = result) := by
  unfold stage putBody
  split
  · exact ⟨stored, h, rfl, .inl rfl⟩
  simp only
  split
  · exact ⟨stored, h, rfl, .inl rfl⟩
  split
  · exact ⟨stored, h, rfl, .inl rfl⟩
  case isFalse hpinned =>
    by_cases hkey : key = (attempt.runId, result.resultVersion)
    · subst hkey
      rw [h] at hpinned
      have hsame : contentDigest stored = contentDigest result := by simpa using hpinned
      exact ⟨result, Dict.get?_set_self .., hsame.symm, .inr rfl⟩
    · exact ⟨stored, by rw [Dict.get?_set_of_ne _ _ hkey]; exact h, rfl, .inl rfl⟩

theorem Plane.run_pins (calls : List Call) {key : UUID × ℕ} {body : ServiceResult}
    (h : p.bodies.get? key = some body) :
    Pins contentDigest (p.run contentDigest sha256 policy calls) key body
      (stagedBodies calls) := by
  induction calls generalizing p body with
  | nil => exact ⟨body, h, rfl, .inl rfl⟩
  | cons call calls ih =>
    rw [Plane.run, List.foldl_cons]
    change Pins contentDigest ((Plane.step contentDigest sha256 policy p call).run contentDigest
      sha256 policy calls) key body _
    cases call with
    | job op => exact ih h
    | stage attempt result =>
      obtain ⟨next, hnext, hdigest, hfrom⟩ := stage_keeps contentDigest attempt result h
      obtain ⟨last, hlast, hdigest', hfrom'⟩ := ih hnext
      refine ⟨last, hlast, hdigest'.trans hdigest, ?_⟩
      change last = body ∨ last ∈ result :: stagedBodies calls
      obtain rfl | hmem := hfrom'
      · refine hfrom.imp_right fun hresult => ?_
        rw [hresult]
        exact List.mem_cons_self ..
      · exact .inr (List.mem_cons_of_mem _ hmem)

theorem issued_expected (ops : List Op) :
    ∀ attempt ∈ issued (history sha256 policy {} ops), attempt.expectedResultVersion = 0 := by
  induction ops using List.reverseRecOn with
  | nil => exact fun _ h => absurd h List.not_mem_nil
  | append_singleton ops op ih =>
    intro attempt hattempt
    rw [history_snoc, issued, List.filterMap_append, List.mem_append] at hattempt
    obtain hold | hnew := hattempt
    · exact ih attempt hold
    obtain ⟨call, hcall, hissued⟩ := List.mem_filterMap.mp hnew
    obtain rfl := List.mem_singleton.mp hcall
    have linked : Linked (run sha256 policy {} ops) := run_linked ops
    have effect := step_effect sha256 policy linked op
    have hreply := issuedBy_eq hissued
    change (step sha256 policy (run sha256 policy {} ops) op).1 = _ at hreply
    rw [hreply] at effect
    cases effect with
    | claimed j r owner attemptId leaseSeconds now _ job run attempt hattempt touched hcurrent
        claimable =>
      have law := (run_lawful ops j).law job run touched.before touched.current
      rw [hattempt]
      exact law.version_zero (JobStatus.not_succeeded_of_live
        (JobStatus.live_of_claimable claimable).1)

variable (policy) in
theorem finish_publishes (linked : Linked s) {attempt : ClaimedAttempt} {job : Job} {run : Run}
    (live : authority s attempt = .ok (job, run))
    (expected : run.resultVersion = attempt.expectedResultVersion) (reference : ResultReference)
    (hrun : reference.runId = attempt.runId) (htoken : reference.fencingToken = attempt.fencingToken)
    (hnext : reference.resultVersion = attempt.expectedResultVersion + 1)
    (unused : s.results.get? (reference.runId, reference.resultVersion) = none) (now : Int) :
    ∃ record, (finish policy attempt .publishResult now none [] (some reference) s).1 =
      .ok record := by
  obtain ⟨hjob, hcurrent, hstored, holds⟩ := linked.authority live
  obtain ⟨hattempts, htakeovers⟩ := (linked _).counters job hjob
  have decided : nextState { job.facts with hasOpenTasks := ([] : List UUID) ≠ [] } .publishResult
      policy = .ok { status := .succeeded, releaseLease := true, requiresLease := true } :=
    nextState_publishResult hattempts htakeovers holds.running
  have current : ¬ (reference.runId ≠ attempt.runId ∨
      reference.fencingToken ≠ attempt.fencingToken ∨
      run.resultVersion ≠ attempt.expectedResultVersion ∨
      reference.resultVersion ≠ attempt.expectedResultVersion + 1) := by
    simp only [hrun, htoken, expected, hnext, ne_eq, not_true_eq_false, or_self, not_false_eq_true]
  obtain ⟨run', transition, s', hadmit, hstatus⟩ : ∃ run' transition s',
      finishAdmission policy s attempt .publishResult [] (some reference) =
        .ok (job, run', transition, s') ∧ transition.status = .succeeded := by
    simp only [finishAdmission, JobEvent.finishes, Bool.true_eq_false, if_false, live, decided,
      if_true, commitResult, if_neg current, unused, Option.isSome_none, Bool.false_eq_true]
    exact ⟨_, _, _, rfl, rfl⟩
  simp only [finish, hadmit, hstatus, reduceCtorEq, false_and, if_false]
  have stored := Dict.get?_set_self s'.runs (attempt.jobId, attempt.runId)
    ({ run' with runStatus := .succeeded }.release transition.releaseLease)
  refine record_of_current (Eq.trans ?_ stored)
  change (s'.runs.set (attempt.jobId, attempt.runId) _).get? (job.jobId, job.currentRunId) = _
  rw [(linked _).jobId job hjob, hcurrent]

structure PublishedRows (s : Store) (attempt : ClaimedAttempt) (reference : ResultReference) :
    Prop where
  job : ∃ job, s.jobs.get? attempt.jobId = some job ∧ job.status.terminal = true ∧
    job.currentRunId = attempt.runId
  run : ∃ run, s.runs.get? (attempt.jobId, attempt.runId) = some run ∧
    run.resultVersion = reference.resultVersion
  reference : s.results.get? (reference.runId, reference.resultVersion) = some reference

theorem Effect.publishedRows {s' : Store} {attempt : ClaimedAttempt} {now : Int}
    {problem : Option ServiceProblem} {openTaskIds : List UUID} {reference : ResultReference}
    {reply : Reply}
    (h : Effect sha256 policy s (.finish attempt .publishResult now problem openTaskIds
      (some reference)) (.ok reply) s') :
    PublishedRows s' attempt reference ∧
      s.results.get? (reference.runId, reference.resultVersion) = none := by
  cases h with
  | finished attempt event now problem openTaskIds result _ record job run transition version
      touched hcurrent holds finishes decided explained published =>
    obtain ⟨-, ref, href, publishes, rfl, hresults⟩ | ⟨hother, -⟩ := published
    case inr => exact absurd rfl hother
    obtain rfl := Option.some.inj href
    have hrow := touched.runs (attempt.jobId, attempt.runId)
    rw [← hcurrent, if_pos rfl, hcurrent] at hrow
    refine ⟨⟨⟨_, touched.stored, ?_, hcurrent⟩, ⟨_, hrow, rfl⟩, ?_⟩, publishes.unused⟩
    · change transition.status.terminal = true
      rw [(nextState_finish finishes decided).published rfl]
      rfl
    · rw [hresults, Dict.get?_set_self]

variable (sha256 policy) in
theorem PublishedRows.stays {attempt : ClaimedAttempt} {reference : ResultReference}
    (rows : PublishedRows s attempt reference) (linked : Linked s) (ops : List Op) :
    PublishedRows (MemoryJobStore.run sha256 policy s ops) attempt reference := by
  obtain ⟨job, hjob, hterminal, hcurrent⟩ := rows.job
  obtain ⟨current, hrun, hversion⟩ := rows.run
  have final := run_final sha256 policy linked ops hjob hterminal
  obtain ⟨t, hjob'⟩ := final.frozen.job
  exact ⟨⟨_, hjob', hterminal, hcurrent⟩, ⟨current, (final.frozen.runs _).trans hrun, hversion⟩,
    final.references _ _ rows.reference⟩

theorem PublishedRows.serves {attempt : ClaimedAttempt} {reference : ResultReference}
    (rows : PublishedRows p.jobs attempt reference) (linked : Linked p.jobs)
    (hrunId : reference.runId = attempt.runId) (hpositive : 1 ≤ reference.resultVersion)
    {body : ServiceResult}
    (hbody : p.bodies.get? (attempt.runId, reference.resultVersion) = some body)
    (hdigest : contentDigest body = reference.resultDigest) {principal : Principal}
    {record : JobRecord} (authorized : authorizedRecord p.jobs principal attempt.jobId = .ok record) :
    serveResult contentDigest p principal attempt.jobId = .ok body := by
  obtain ⟨job, hjob, -, hcurrent⟩ := rows.job
  obtain ⟨run, hrun, hversion⟩ := rows.run
  have hrow := hrun
  rw [← hcurrent, ← (linked _).jobId job hjob] at hrow
  have hread : ∃ record, readJob p.jobs attempt.jobId = .ok (some record) ∧
      record.resultVersion = run.resultVersion ∧ record.currentRun.runId = run.runId := by
    simp only [readJob, hjob, Store.record, hrow]
    exact ⟨_, rfl, rfl, rfl⟩
  obtain ⟨found, hfound, hfoundVersion, hfoundRun⟩ := hread
  obtain rfl : found = record := by
    simp only [authorizedRecord, hfound] at authorized
    split_ifs at authorized
    split at authorized
    · cases authorized
    · exact Except.ok.inj authorized
  rw [(linked _).runId _ _ hrun] at hfoundRun
  simp only [serveResult, authorized, hfoundVersion, hversion, hfoundRun, readResultReference]
  have href := rows.reference
  rw [hrunId] at href
  simp only [href, hbody, hdigest]
  rw [if_neg (by omega), if_neg (not_not.mpr rfl)]

/-- The attempt's publication succeeds and its body is served from then on, short of another
body with the same digest. -/
structure PublicationServed (contentDigest : ServiceResult → Digest) (sha256 : String → Digest)
    (policy : JobPolicy) (p : Plane) (attempt : ClaimedAttempt) (result : ServiceResult)
    (others : List Call) (now : Int) : Prop where
  published : ∃ record,
    (publish contentDigest sha256 policy attempt result others now p).1 = .ok record
  served : ∀ later, (∀ body ∈ stagedBodies (others ++ later),
      contentDigest body = contentDigest result → body = result) →
    ∀ principal record, authorizedRecord
        (Plane.run contentDigest sha256 policy
          (publish contentDigest sha256 policy attempt result others now p).2 later).jobs
        principal attempt.jobId = .ok record →
      serveResult contentDigest (Plane.run contentDigest sha256 policy
          (publish contentDigest sha256 policy attempt result others now p).2 later)
        principal attempt.jobId = .ok result

/-- No other body is stored and no reference committed under the attempt's run and version. -/
structure Unblocked (contentDigest : ServiceResult → Digest) (sha256 : String → Digest)
    (policy : JobPolicy) (p : Plane) (attempt : ClaimedAttempt) (result : ServiceResult)
    (others : List Call) : Prop where
  body : ∀ stored, p.bodies.get? (attempt.runId, result.resultVersion) = some stored →
    contentDigest stored = contentDigest result
  reference : (p.run contentDigest sha256 policy others).jobs.results.get?
    (attempt.runId, result.resultVersion) = none

theorem stage_ok {attempt : ClaimedAttempt} {result : ServiceResult}
    (hrun : result.run.runId = attempt.runId)
    (hversion : result.resultVersion = attempt.expectedResultVersion + 1)
    (free : ∀ stored, p.bodies.get? (attempt.runId, result.resultVersion) = some stored →
      contentDigest stored = contentDigest result) :
    stage contentDigest attempt result p = (.ok (contentDigest result),
      { p with bodies := p.bodies.set (attempt.runId, result.resultVersion) result }) := by
  have pinned : ¬ (p.bodies.get? (attempt.runId, result.resultVersion)).any
      (fun stored => contentDigest stored ≠ contentDigest result) = true := by
    cases hstored : p.bodies.get? (attempt.runId, result.resultVersion) with
    | none => simp
    | some stored => simp [free stored hstored]
  simp only [stage, putBody, hrun, hversion, ne_eq, not_true_eq_false, or_self, if_false]
  rw [hversion] at pinned
  rw [if_neg pinned]

theorem stage_blocked {attempt : ClaimedAttempt} {result stored : ServiceResult}
    (hstored : p.bodies.get? (attempt.runId, result.resultVersion) = some stored)
    (hother : contentDigest stored ≠ contentDigest result) :
    ∃ fault, stage contentDigest attempt result p = (.error fault, p) := by
  unfold stage putBody
  split
  · exact ⟨_, rfl⟩
  simp only [hstored, Option.any_some, hother, ne_eq, not_false_eq_true, decide_true, if_true]
  split <;> exact ⟨_, rfl⟩

variable (sha256 policy) in
/-- After a successful stage, `publish` ends with the finish of the attempt. -/
theorem publish_staged {attempt : ClaimedAttempt} {result : ServiceResult} (others : List Call)
    (now : Int) {digest : Digest} {staged : Plane}
    (h : stage contentDigest attempt result p = (.ok digest, staged)) :
    publish contentDigest sha256 policy attempt result others now p =
      ((finish policy attempt .publishResult now none []
          (some (resultReference result attempt digest))
          (staged.run contentDigest sha256 policy others).jobs).1,
        { staged.run contentDigest sha256 policy others with
          jobs := (finish policy attempt .publishResult now none []
            (some (resultReference result attempt digest))
            (staged.run contentDigest sha256 policy others).jobs).2 }) := by
  rw [publish, h]

/-- Published rows with a pinned body serve that body for good, short of a twin. -/
theorem Pins.served {attempt : ClaimedAttempt} {result : ServiceResult}
    {bodies : List ServiceResult} {later : List Call}
    (pins : Pins contentDigest p (attempt.runId, result.resultVersion) result bodies)
    (rows : PublishedRows p.jobs attempt
      (resultReference result attempt (contentDigest result)))
    (linked : Linked p.jobs)
    (twin : ∀ body ∈ bodies ++ stagedBodies later,
      contentDigest body = contentDigest result → body = result)
    {principal : Principal} {record : JobRecord}
    (authorized : authorizedRecord (p.run contentDigest sha256 policy later).jobs principal
      attempt.jobId = .ok record) :
    serveResult contentDigest (p.run contentDigest sha256 policy later) principal attempt.jobId =
      .ok result := by
  have rows' := rows.stays sha256 policy linked (jobOps later)
  have linked' := run_keeps_linked sha256 policy linked (jobOps later)
  rw [← Plane.run_jobs contentDigest] at rows' linked'
  obtain ⟨middle, hmiddle, hdigest, hfrom⟩ := pins
  obtain rfl : middle = result := by
    obtain hsame | hmem := hfrom
    · exact hsame
    · exact twin middle (List.mem_append_left _ hmem) hdigest
  obtain ⟨last, hlast, hdigest', hfrom'⟩ :
      Pins contentDigest (p.run contentDigest sha256 policy later) _ middle (stagedBodies later) :=
    Plane.run_pins later hmiddle
  obtain rfl : last = middle := by
    obtain hsame | hmem := hfrom'
    · exact hsame
    · exact twin last (List.mem_append_right _ hmem) hdigest'
  exact rows'.serves linked' rfl last.positive hlast rfl authorized

theorem publication_served_iff (calls others : List Call) (attempt : ClaimedAttempt)
    (result : ServiceResult) (now : Int)
    (claimed : attempt ∈ issued (history sha256 policy {} (jobOps calls)))
    (live : (authority (run sha256 policy {} (jobOps (calls ++ others))) attempt).isOk = true)
    (hrun : result.run.runId = attempt.runId)
    (hversion : result.resultVersion = attempt.expectedResultVersion + 1) :
    PublicationServed contentDigest sha256 policy
        (Plane.run contentDigest sha256 policy {} calls) attempt result others now ↔
      Unblocked contentDigest sha256 policy (Plane.run contentDigest sha256 policy {} calls)
        attempt result others := by
  obtain ⟨p, hp⟩ : ∃ p, p = Plane.run contentDigest sha256 policy {} calls := ⟨_, rfl⟩
  obtain ⟨s, hs⟩ : ∃ s, s = run sha256 policy {} (jobOps (calls ++ others)) := ⟨_, rfl⟩
  have hjobs : ∀ bodies : Bodies, (Plane.run contentDigest sha256 policy
      { p with bodies := bodies } others).jobs = s := by
    intro bodies
    rw [hs, Plane.run_jobs, hp, Plane.run_jobs, ← run_append, jobOps, jobOps, jobOps,
      List.filterMap_append]
  rw [← hs] at live
  rw [← hp]
  have linked : Linked s := hs ▸ run_linked _
  have effect := step_effect sha256 policy linked (.finish attempt .publishResult now none []
    (some (resultReference result attempt (contentDigest result))))
  constructor
  · intro served
    obtain ⟨record, hpublished⟩ := served.published
    have body : ∀ stored, p.bodies.get? (attempt.runId, result.resultVersion) = some stored →
        contentDigest stored = contentDigest result := by
      intro stored hstored
      by_contra hother
      obtain ⟨fault, hblocked⟩ := stage_blocked hstored hother
      rw [publish, hblocked] at hpublished
      cases hpublished
    refine ⟨body, ?_⟩
    rw [publish_staged _ _ _ _ (stage_ok hrun hversion body), hjobs] at hpublished
    change (finish policy attempt .publishResult now none []
      (some (resultReference result attempt (contentDigest result))) s).1 = _ at hpublished
    have hreply : (step sha256 policy s (.finish attempt .publishResult now none []
        (some (resultReference result attempt (contentDigest result))))).1 =
        .ok (.record record) := by
      simp only [step, answer, hpublished]
      rfl
    rw [hreply] at effect
    have unused := effect.publishedRows.2
    rw [← hjobs p.bodies] at unused
    exact unused
  · intro unblocked
    have hpublish := publish_staged sha256 policy others now
      (stage_ok hrun hversion unblocked.body)
    rw [hjobs] at hpublish
    obtain ⟨⟨job, current⟩, hheld⟩ : ∃ held, authority s attempt = .ok held := by
      cases hauthority : authority s attempt with
      | error fault => simp [hauthority, Except.isOk, Except.toBool] at live
      | ok held => exact ⟨held, rfl⟩
    obtain ⟨hjob, hcurrent, hstored, holds⟩ := linked.authority hheld
    have lawful : LawfulAt s attempt.jobId := hs ▸ run_lawful _ _
    have hzero : current.resultVersion = attempt.expectedResultVersion := by
      rw [issued_expected _ _ claimed]
      exact (lawful.law job current hjob (hcurrent ▸ hstored)).version_zero (by simp [holds.running])
    have unused := unblocked.reference
    rw [hjobs p.bodies] at unused
    obtain ⟨record, hrecord⟩ := finish_publishes policy linked hheld hzero
      (resultReference result attempt (contentDigest result)) rfl rfl hversion unused now
    have hreply : (step sha256 policy s (.finish attempt .publishResult now none []
        (some (resultReference result attempt (contentDigest result))))).1 =
        .ok (.record record) := by
      simp only [step, answer, hrecord]
      rfl
    rw [hreply] at effect
    rw [hrecord] at hpublish
    refine ⟨⟨record, by rw [hpublish]⟩, fun later twin principal record' authorized => ?_⟩
    rw [stagedBodies, List.filterMap_append] at twin
    rw [hpublish] at authorized ⊢
    have pinned : Pins contentDigest (Plane.run contentDigest sha256 policy { p with
        bodies := p.bodies.set (attempt.runId, result.resultVersion) result } others)
        (attempt.runId, result.resultVersion) result (stagedBodies others) :=
      Plane.run_pins others (Dict.get?_set_self ..)
    -- The finish writes no body.
    have pins : Pins contentDigest { Plane.run contentDigest sha256 policy { p with
          bodies := p.bodies.set (attempt.runId, result.resultVersion) result } others with
        jobs := (step sha256 policy s (.finish attempt .publishResult now none []
          (some (resultReference result attempt (contentDigest result))))).2 }
        (attempt.runId, result.resultVersion) result (stagedBodies others) := pinned
    exact pins.served effect.publishedRows.1 (step_linked sha256 policy linked _) twin authorized

/-- The second attempt of the small job, after the first one's lease was reclaimed. -/
def sampleSecond : ClaimedAttempt where
  jobId := ⟨1⟩
  runId := ⟨2⟩
  attemptId := ⟨21⟩
  owner := ⟨4⟩
  fencingToken := 2
  expectedResultVersion := 0
  leaseExpiresAt := 120

def sampleResult (attemptId : UUID) : ServiceResult where
  run := { runId := ⟨2⟩, revision := sampleRevision 0, attemptId := some attemptId }
  resultVersion := 1
  executionStatus := .succeeded
  businessStatus := some .verified
  positive := numbered_from_one
  maxArtifacts := by decide
  honest := rfl

def sampleBodyDigest (body : ServiceResult) : Digest :=
  if body.run.attemptId = some ⟨20⟩ then sampleDigest else otherDigest

/-- The first attempt stores its body and dies; its lease runs out and a second one claims. -/
def sampleOrphan : List Call :=
  [.job sampleCreate, .job sampleClaim, .stage sampleAttempt (sampleResult ⟨20⟩),
    .job (.expireLease { jobId := ⟨1⟩, runId := ⟨2⟩, fencingToken := 1, leaseExpiresAt := 60 }
      60 ⟨11⟩),
    .job (.claim ⟨1⟩ ⟨2⟩ ⟨4⟩ 60 60 ⟨21⟩)]

theorem sampleSecond_claimed :
    sampleSecond ∈ issued (history (fun _ => sampleDigest) {} {} (jobOps sampleOrphan)) := by
  decide +kernel

theorem sampleSecond_live : (authority (run (fun _ => sampleDigest) {} {}
    (jobOps (sampleOrphan ++ []))) sampleSecond).isOk = true := by
  decide +kernel

theorem publication_served_iff_second :
    PublicationServed sampleBodyDigest (fun _ => sampleDigest) {}
        (Plane.run sampleBodyDigest (fun _ => sampleDigest) {} {} sampleOrphan) sampleSecond
        (sampleResult ⟨20⟩) [] 70 ↔
      Unblocked sampleBodyDigest (fun _ => sampleDigest) {}
        (Plane.run sampleBodyDigest (fun _ => sampleDigest) {} {} sampleOrphan) sampleSecond
        (sampleResult ⟨20⟩) [] :=
  publication_served_iff sampleOrphan [] sampleSecond (sampleResult ⟨20⟩) 70 sampleSecond_claimed
    sampleSecond_live rfl rfl

/-- The orphan of the first attempt turns the second one's own body away. -/
theorem orphan_blocks_publication :
    ¬ ∀ calls others attempt result now,
      attempt ∈ issued (history (fun _ => sampleDigest) {} {} (jobOps calls)) →
      (authority (run (fun _ => sampleDigest) {} {} (jobOps (calls ++ others))) attempt).isOk =
        true →
      result.run.runId = attempt.runId →
      result.resultVersion = attempt.expectedResultVersion + 1 →
      PublicationServed sampleBodyDigest (fun _ => sampleDigest) {}
        (Plane.run sampleBodyDigest (fun _ => sampleDigest) {} {} calls) attempt result others
        now := by
  intro h
  obtain ⟨record, hrecord⟩ := (h sampleOrphan [] sampleSecond (sampleResult ⟨21⟩) 70
    sampleSecond_claimed sampleSecond_live rfl rfl).published
  have hblocked : (publish sampleBodyDigest (fun _ => sampleDigest) {} sampleSecond
      (sampleResult ⟨21⟩) [] 70 (Plane.run sampleBodyDigest (fun _ => sampleDigest) {} {}
        sampleOrphan)).1 = .error (.service .conflict) := by
    decide +kernel
  rw [hblocked] at hrecord
  cases hrecord

end AppraisalReview.MemoryJobStore
