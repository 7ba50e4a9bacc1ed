import AppraisalReview.OutboxDispatch

set_option autoImplicit false

/-!
# When a pass survives its races

A lost race is caught after a successful send, in a reclaim and in a scheduled
retry. It is not caught when the pass defers a failed send.
-/
namespace AppraisalReview.MemoryJobStore

variable {sha256 : String → Digest} {policy : JobPolicy} {s : Store}

def RoundPending (s : Store) (record : DispatchRecord) : Prop :=
  ∃ entry, s.outbox.get? (record.jobId, record.outboxSeq) = some entry ∧
    entry.dispatchToken = record.dispatchToken ∧ entry.dispatchState = .pending

variable (policy) in
theorem markDispatched_answers (linked : Linked s) (record : DispatchRecord) (now : Int) :
    (∃ found, (markDispatched policy record now s).1 = .ok found) ∨
      ∃ message, (markDispatched policy record now s).1 = .error (.conditionFailed message) := by
  unfold markDispatched
  split
  case h_2 => exact .inr ⟨_, rfl⟩
  case h_1 entry job hentry hjob =>
    split
    · exact .inr ⟨_, rfl⟩
    obtain ⟨-, -, ⟨run, hrun⟩, -⟩ := (linked _).round _ _ hentry
    obtain ⟨hattempts, htakeovers⟩ := (linked _).counters job hjob
    obtain ⟨current, hcurrent⟩ := (linked _).current job hjob
    have hjobId := (linked _).jobId job hjob
    by_cases hqueued : job.status = .queued
    · left
      have hdecided : nextState job.facts .dispatchSucceeded policy =
          .ok { status := .dispatched } :=
        nextState_dispatchSucceeded hattempts htakeovers hqueued
      rw [← hjobId] at hrun hcurrent
      simp only [hqueued, if_true, hdecided, hrun]
      by_cases hsame : job.currentRunId = entry.runId
      · exact record_of_current (by rw [hsame]; exact Dict.get?_set_self ..)
      · refine record_of_current (Eq.trans ?_ hcurrent)
        exact Dict.get?_set_of_ne _ _ (by simpa using hsame)
    · left
      rw [← hjobId] at hcurrent
      simp only [hqueued, if_false]
      exact record_of_current hcurrent

variable (policy) in
theorem rescheduleDispatch_pending (linked : Linked s) {record : DispatchRecord}
    (pending : RoundPending s record) (availableAt : Int) :
    ∃ kept, (rescheduleDispatch policy record availableAt s).1 = .ok kept := by
  obtain ⟨entry, hentry, htoken, hstate⟩ := pending
  obtain ⟨-, -, -, job, hjob, -⟩ := (linked _).round _ _ hentry
  obtain ⟨hattempts, htakeovers⟩ := (linked _).counters job hjob
  simp only [rescheduleDispatch, hentry, htoken, hstate, hjob]
  by_cases hterminal : job.status.terminal = true
  · exact ⟨false, by simp [hterminal]⟩
  · have hdecided : nextState job.facts .dispatchFailed policy = .ok { status := job.status } :=
      nextState_dispatchFailed hattempts htakeovers (Bool.eq_false_of_not_eq_true hterminal)
    exact ⟨true, by simp [hterminal, hdecided]⟩

variable (policy) in
theorem rescheduleDispatch_lost {record : DispatchRecord} (lost : ¬ RoundPending s record)
    (availableAt : Int) : ∃ message,
      rescheduleDispatch policy record availableAt s = (.error (.conditionFailed message), s) := by
  unfold rescheduleDispatch
  split
  · exact ⟨_, rfl⟩
  case h_2 entry hentry =>
    split
    · exact ⟨_, rfl⟩
    case isFalse hround =>
      push Not at hround
      exact absurd ⟨entry, hentry, hround.1, hround.2⟩ lost

variable (policy) in
theorem deferDispatch_eq (record : DispatchRecord) (now : Int) (jitter : Int → Int) :
    ∃ availableAt, ∀ s, deferDispatch policy record now jitter s =
      rescheduleDispatch policy record availableAt s := by
  obtain ⟨delay, hdelay⟩ : ∃ delay, policy.backoffSeconds (record.dispatchAttempts + 1) =
      .ok delay := by
    rw [JobPolicy.backoffSeconds, if_neg (by omega)]
    exact ⟨_, rfl⟩
  exact ⟨now + delay + jitter delay, fun s => by rw [deferDispatch, hdelay]⟩

variable (policy) in
theorem markDispatched_linked (linked : Linked s) (record : DispatchRecord) (now : Int) :
    Linked (markDispatched policy record now s).2 :=
  step_linked (fun _ => sampleDigest) policy linked (.markDispatched record now)

variable (policy) in
theorem rescheduleDispatch_linked (linked : Linked s) (record : DispatchRecord)
    (availableAt : Int) : Linked (rescheduleDispatch policy record availableAt s).2 :=
  step_linked (fun _ => sampleDigest) policy linked (.rescheduleDispatch record availableAt)

/-- The condition a record's handling depends on: a failed send finds its round pending. -/
def Handling.Undisturbed (sha256 : String → Digest) (policy : JobPolicy) (handling : Handling)
    (record : DispatchRecord) (s : Store) : Prop :=
  handling.accepted = false → RoundPending (run sha256 policy s handling.others) record

theorem handleRecord_ok (linked : Linked s) {handling : Handling} {record : DispatchRecord}
    (undisturbed : handling.Undisturbed sha256 policy record s) (outcome : DispatchOutcome) :
    ∃ outcome' s', handleRecord sha256 policy handling record outcome s = (.ok outcome', s') ∧
      outcome'.total = outcome.total + 1 ∧ Linked s' := by
  have linked' := run_keeps_linked sha256 policy linked handling.others
  unfold handleRecord
  by_cases haccepted : handling.accepted = true
  · have kept := markDispatched_linked policy linked' record handling.now
    have answers := markDispatched_answers policy linked' record handling.now
    rw [if_pos haccepted]
    cases hmark : markDispatched policy record handling.now (run sha256 policy s handling.others)
      with
    | mk reply s' =>
      rw [hmark] at kept answers
      obtain ⟨found, rfl⟩ | ⟨message, rfl⟩ := answers
      · exact ⟨{ outcome with sent := outcome.sent + 1 }, s', rfl,
          by simp only [DispatchOutcome.total]; omega, kept⟩
      · exact ⟨{ outcome with superseded := outcome.superseded + 1 }, s', rfl,
          by simp only [DispatchOutcome.total]; omega, kept⟩
  · have pending := undisturbed (Bool.eq_false_of_not_eq_true haccepted)
    obtain ⟨availableAt, hdefer⟩ :=
      deferDispatch_eq policy record handling.now handling.jitter
    have kept := rescheduleDispatch_linked policy linked' record availableAt
    obtain ⟨kept', hkept⟩ :=
      rescheduleDispatch_pending policy linked' pending availableAt
    rw [if_neg haccepted, hdefer]
    cases hround : rescheduleDispatch policy record availableAt
        (run sha256 policy s handling.others) with
    | mk reply s' =>
      rw [hround] at kept hkept
      obtain rfl : reply = .ok kept' := hkept
      cases kept' with
      | true =>
        exact ⟨{ outcome with deferred := outcome.deferred + 1 }, s', rfl,
          by simp only [DispatchOutcome.total]; omega, kept⟩
      | false =>
        exact ⟨{ outcome with abandoned := outcome.abandoned + 1 }, s', rfl,
          by simp only [DispatchOutcome.total]; omega, kept⟩

theorem handleRecord_lost {handling : Handling} {record : DispatchRecord}
    (disturbed : ¬ handling.Undisturbed sha256 policy record s) (outcome : DispatchOutcome) :
    ∃ message s', handleRecord sha256 policy handling record outcome s =
      (.error (.conditionFailed message), s') := by
  rw [Handling.Undisturbed, Classical.not_imp] at disturbed
  obtain ⟨hfailed, lost⟩ := disturbed
  obtain ⟨availableAt, hdefer⟩ :=
    deferDispatch_eq policy record handling.now handling.jitter
  obtain ⟨message, hlost⟩ := rescheduleDispatch_lost policy lost availableAt
  refine ⟨message, run sha256 policy s handling.others, ?_⟩
  simp only [handleRecord, hfailed, Bool.false_eq_true, if_false, hdefer, hlost]

/-- Every failed send of the pass finds its round pending when it is deferred. -/
def Undisturbed (sha256 : String → Digest) (policy : JobPolicy) :
    (ℕ → Handling) → List DispatchRecord → Store → Prop
  | _, [], _ => True
  | handling, record :: rest, s =>
    (handling 0).Undisturbed sha256 policy record s ∧
      Undisturbed sha256 policy (fun n => handling (n + 1)) rest
        (handleRecord sha256 policy (handling 0) record {} s).2

def DispatchRecord.round (record : DispatchRecord) : UUID × UUID × ℕ × UUID :=
  (record.jobId, record.runId, record.outboxSeq, record.dispatchToken)

def DispatchMessage.round (message : DispatchMessage) : UUID × UUID × ℕ × UUID :=
  (message.jobId, message.runId, message.outboxSeq, message.dispatchToken)

theorem handleRecord_store (handling : Handling) (record : DispatchRecord)
    (outcome outcome' : DispatchOutcome) :
    (handleRecord sha256 policy handling record outcome s).2 =
      (handleRecord sha256 policy handling record outcome' s).2 := by
  simp only [handleRecord]
  split
  · obtain ⟨reply, s'⟩ := markDispatched policy record handling.now
      (run sha256 policy s handling.others)
    cases reply with
    | ok found => rfl
    | error fault => cases fault <;> rfl
  · obtain ⟨reply, s'⟩ := deferDispatch policy record handling.now handling.jitter
      (run sha256 policy s handling.others)
    cases reply with
    | ok kept => cases kept <;> rfl
    | error fault => rfl

theorem dispatchEach_ok {records : List DispatchRecord} {handling : ℕ → Handling}
    (linked : Linked s) (undisturbed : Undisturbed sha256 policy handling records s)
    (outcome : DispatchOutcome) :
    ∃ outcome', (dispatchEach sha256 policy handling records outcome s).result = .ok outcome' ∧
      outcome'.total = outcome.total + records.length ∧
      (dispatchEach sha256 policy handling records outcome s).attempted.map
        DispatchMessage.round = records.map DispatchRecord.round := by
  induction records generalizing handling outcome s with
  | nil => exact ⟨outcome, rfl, rfl, rfl⟩
  | cons record rest ih =>
    obtain ⟨first, later⟩ := undisturbed
    obtain ⟨next, s', hfirst, htotal, linked'⟩ := handleRecord_ok linked first outcome
    rw [handleRecord_store _ _ {} outcome, hfirst] at later
    obtain ⟨outcome', hresult, htotal', hattempted⟩ := ih linked' later next
    refine ⟨outcome', ?_, ?_, ?_⟩
    · simp only [dispatchEach, hfirst, hresult]
    · rw [htotal', htotal, List.length_cons]
      omega
    · simp only [dispatchEach, hfirst, List.map_cons, hattempted]
      rfl

theorem dispatchEach_lost {records : List DispatchRecord} {handling : ℕ → Handling}
    (linked : Linked s) (disturbed : ¬ Undisturbed sha256 policy handling records s)
    (outcome : DispatchOutcome) : ∃ message,
      (dispatchEach sha256 policy handling records outcome s).result =
        .error (.conditionFailed message) := by
  induction records generalizing handling outcome s with
  | nil => exact absurd trivial disturbed
  | cons record rest ih =>
    by_cases first : (handling 0).Undisturbed sha256 policy record s
    · obtain ⟨next, s', hfirst, -, linked'⟩ := handleRecord_ok linked first outcome
      rw [Undisturbed, handleRecord_store _ _ {} outcome, hfirst] at disturbed
      obtain ⟨message, hlost⟩ := ih linked' (fun later => disturbed ⟨first, later⟩) next
      exact ⟨message, by simp only [dispatchEach, hfirst, hlost]⟩
    · obtain ⟨message, s', hlost⟩ := handleRecord_lost first outcome
      exact ⟨message, by simp only [dispatchEach, hlost]⟩

def NoRace {α : Type} (result : Except Fault α) : Prop :=
  ∀ message, result ≠ .error (.conditionFailed message)

theorem NoRace.error {α β : Type} {fault : Fault} (h : NoRace (.error fault : Except Fault α)) :
    NoRace (.error fault : Except Fault β) := by
  rintro message heq
  exact h message (congrArg Except.error (Except.error.inj heq))

theorem NoRace.ok {α : Type} (value : α) : NoRace (.ok value) := nofun

theorem NoRace.map {α β : Type} {result : Except Fault α} (h : NoRace result) (f : α → β) :
    NoRace (result.map f) := by
  cases result with
  | ok value => exact .ok _
  | error fault => exact h.error

theorem reclaimEach_noRace (leases : List ExpiredLease) (script : ℕ → Reclaiming)
    (reclaimed : ℕ) (s : Store) :
    NoRace (reclaimEach sha256 policy script leases reclaimed s).1 := by
  induction leases generalizing script reclaimed s with
  | nil => exact .ok _
  | cons lease rest ih =>
    rw [reclaimEach]
    obtain ⟨reply, s'⟩ := expireLease policy lease (script 0).now (script 0).token
      (run sha256 policy s (script 0).others)
    cases reply with
    | ok record => exact ih _ _ _
    | error fault =>
      cases fault with
      | conditionFailed message => exact ih _ _ _
      | service | valueError | keyError => nofun

theorem readJob_noRace (s : Store) (jobId : UUID) : NoRace (readJob s jobId) := by
  unfold readJob
  split
  · exact .ok _
  · rename_i job _
    unfold Store.record
    split
    · nofun
    · exact .ok _

theorem recoverRetryable_noRace (script : Recovering) (jobId : UUID) (s : Store) :
    NoRace (recoverRetryable sha256 policy script jobId s).1 := by
  have hread := readJob_noRace (run sha256 policy s script.before) jobId
  rw [recoverRetryable]
  cases hjob : readJob (run sha256 policy s script.before) jobId with
  | error fault => exact (hjob ▸ hread).error
  | ok found =>
    cases found with
    | none => exact .ok _
    | some record =>
      simp only
      split
      · exact .ok _
      cases hdelay : policy.backoffSeconds record.attemptCount with
      | error fault =>
        unfold JobPolicy.backoffSeconds at hdelay
        split_ifs at hdelay
        obtain rfl := Except.error.inj hdelay
        nofun
      | ok delay =>
        simp only
        obtain ⟨reply, s'⟩ := scheduleRetry policy record.jobId
          (script.availableFrom + delay + script.jitter delay) script.now script.token
          (run sha256 policy (run sha256 policy s script.before) script.between)
        cases reply with
        | ok record => exact .ok _
        | error fault =>
          cases fault with
          | conditionFailed message => exact .ok _
          | service | valueError | keyError => nofun

theorem recoverEach_noRace (records : List JobRecord) (script : ℕ → Recovering)
    (scheduled : ℕ) (s : Store) :
    NoRace (recoverEach sha256 policy script records scheduled s).1 := by
  induction records generalizing script scheduled s with
  | nil => exact .ok _
  | cons record rest ih =>
    have first : NoRace (recoverRetryable sha256 policy (script 0) record.jobId s).1 :=
      recoverRetryable_noRace _ _ _
    rw [recoverEach]
    cases hfirst : recoverRetryable sha256 policy (script 0) record.jobId s with
    | mk reply s' =>
      rw [hfirst] at first
      cases reply with
      | ok done =>
        cases done with
        | true => exact ih _ _ _
        | false => exact ih _ _ _
      | error fault => exact NoRace.error first

theorem reclaimEach_linked (leases : List ExpiredLease) (script : ℕ → Reclaiming)
    (reclaimed : ℕ) (linked : Linked s) :
    Linked (reclaimEach sha256 policy script leases reclaimed s).2 := by
  induction leases generalizing script reclaimed s with
  | nil => exact linked
  | cons lease rest ih =>
    have next := step_linked sha256 policy
      (run_keeps_linked sha256 policy linked (script 0).others)
      (.expireLease lease (script 0).now (script 0).token)
    rw [reclaimEach]
    change Linked (expireLease policy lease (script 0).now (script 0).token
      (run sha256 policy s (script 0).others)).2 at next
    cases hstep : expireLease policy lease (script 0).now (script 0).token
        (run sha256 policy s (script 0).others) with
    | mk reply s' =>
      rw [hstep] at next
      cases reply with
      | ok record => exact ih _ _ next
      | error fault =>
        cases fault with
        | conditionFailed message => exact ih _ _ next
        | service | valueError | keyError => exact next

theorem recoverRetryable_linked (script : Recovering) (jobId : UUID) (linked : Linked s) :
    Linked (recoverRetryable sha256 policy script jobId s).2 := by
  have linked' := run_keeps_linked sha256 policy linked script.before
  have linked'' := run_keeps_linked sha256 policy linked' script.between
  rw [recoverRetryable]
  cases hjob : readJob (run sha256 policy s script.before) jobId with
  | error fault => exact linked'
  | ok found =>
    cases found with
    | none => exact linked'
    | some record =>
      simp only
      split
      · exact linked'
      cases hdelay : policy.backoffSeconds record.attemptCount with
      | error fault => exact linked'
      | ok delay =>
        simp only
        have next := step_linked sha256 policy linked'' (.scheduleRetry record.jobId
          (script.availableFrom + delay + script.jitter delay) script.now script.token)
        change Linked (scheduleRetry policy record.jobId
          (script.availableFrom + delay + script.jitter delay) script.now script.token
          (run sha256 policy (run sha256 policy s script.before) script.between)).2 at next
        cases hstep : scheduleRetry policy record.jobId
            (script.availableFrom + delay + script.jitter delay) script.now script.token
            (run sha256 policy (run sha256 policy s script.before) script.between) with
        | mk reply s' =>
          rw [hstep] at next
          cases reply with
          | ok record => exact next
          | error fault => cases fault <;> exact next

theorem recoverEach_linked (records : List JobRecord) (script : ℕ → Recovering)
    (scheduled : ℕ) (linked : Linked s) :
    Linked (recoverEach sha256 policy script records scheduled s).2 := by
  induction records generalizing script scheduled s with
  | nil => exact linked
  | cons record rest ih =>
    have next : Linked (recoverRetryable sha256 policy (script 0) record.jobId s).2 :=
      recoverRetryable_linked _ _ linked
    rw [recoverEach]
    cases hfirst : recoverRetryable sha256 policy (script 0) record.jobId s with
    | mk reply s' =>
      rw [hfirst] at next
      cases reply with
      | ok done => cases done <;> exact ih _ _ next
      | error fault => exact next

theorem scanLimit_noRace {α : Type} (limit : Int) (found : List α) :
    NoRace (scanLimit limit found) := by
  unfold scanLimit
  split
  · nofun
  · exact .ok _

theorem expiredLeases_noRace (linked : Linked s) (now limit : Int) :
    NoRace (expiredLeases s now limit) := by
  obtain ⟨entries, hentries, -⟩ := mapM_ok (expiredEntry s now) s.runs.items
    fun item hitem => expiredEntry_ok linked now item hitem
  unfold expiredLeases
  split
  · nofun
  · rw [hentries]
    exact .ok _

theorem strandedRetryables_noRace (linked : Linked s) (cutoff limit : Int) :
    NoRace (strandedRetryables s cutoff limit) := by
  have known : ∀ job ∈ s.jobs.values, ∃ record, s.record job = .ok record := by
    intro job hjob
    obtain ⟨j, hj⟩ := (Dict.mem_values ..).mp hjob
    exact linked.record_ok hj
  simp only [strandedRetryables]
  split
  · rename_i fault hscan
    exact (hscan ▸ scanLimit_noRace _ _ : NoRace (.error fault)).error
  · rename_i found hscan
    have known' : ∀ job ∈ found, ∃ record, s.record job = .ok record := by
      unfold scanLimit at hscan
      split_ifs at hscan
      obtain rfl := Except.ok.inj hscan
      intro job hjob
      have hmem := List.mem_of_mem_take hjob
      rw [List.mem_insertionSort] at hmem
      exact known job (List.mem_filter.mp hmem).1
    obtain ⟨records, hrecords, -⟩ := mapM_ok s.record found known'
    rw [hrecords]
    exact .ok _

variable (sha256 policy) in
theorem reconcileRecovery_noRace (linked : Linked s) (script : Reconciling) (limit : Int) :
    NoRace (reconcileRecovery sha256 policy script limit s).1 ∧
      Linked (reconcileRecovery sha256 policy script limit s).2 := by
  have leases := expiredLeases_noRace linked script.reclaimAt limit
  rw [reconcileRecovery]
  cases hleases : expiredLeases s script.reclaimAt limit with
  | error fault => exact ⟨(hleases ▸ leases).error, linked⟩
  | ok found =>
    have noRace : NoRace (reclaimEach sha256 policy script.reclaiming found 0 s).1 :=
      reclaimEach_noRace _ _ _ _
    have linked₁ : Linked (reclaimEach sha256 policy script.reclaiming found 0 s).2 :=
      reclaimEach_linked _ _ _ linked
    simp only
    cases hreclaim : reclaimEach sha256 policy script.reclaiming found 0 s with
    | mk reply s₁ =>
      rw [hreclaim] at noRace linked₁
      cases reply with
      | error fault => exact ⟨NoRace.error noRace, linked₁⟩
      | ok reclaimed =>
        have linked₂ := run_keeps_linked sha256 policy linked₁ script.beforeRetries
        have stranded := strandedRetryables_noRace linked₂
          (script.retriesAt - policy.leaseSeconds) limit
        simp only
        cases hstranded : strandedRetryables (run sha256 policy s₁ script.beforeRetries)
            (script.retriesAt - policy.leaseSeconds) limit with
        | error fault => exact ⟨(hstranded ▸ stranded).error, linked₂⟩
        | ok records =>
          have noRace' : NoRace (recoverEach sha256 policy script.recovering records 0
              (run sha256 policy s₁ script.beforeRetries)).1 := recoverEach_noRace _ _ _ _
          have linked₃ : Linked (recoverEach sha256 policy script.recovering records 0
              (run sha256 policy s₁ script.beforeRetries)).2 :=
            recoverEach_linked _ _ _ linked₂
          simp only
          cases hrecover : recoverEach sha256 policy script.recovering records 0
              (run sha256 policy s₁ script.beforeRetries) with
          | mk reply s₃ =>
            rw [hrecover] at noRace' linked₃
            cases reply with
            | error fault => exact ⟨NoRace.error noRace', linked₃⟩
            | ok retries =>
              exact ⟨.ok _, run_keeps_linked sha256 policy linked₃ script.beforeDispatch⟩

/-- The pass meets no lost race, and every record it read is attempted and counted. -/
structure DispatchSound (read : Except Fault (List DispatchRecord)) (pass : Pass) : Prop where
  noRace : NoRace pass.result
  counted : ∀ records, read = .ok records → ∃ outcome, pass.result = .ok outcome ∧
    outcome.total = records.length ∧
    pass.attempted.map DispatchMessage.round = records.map DispatchRecord.round

variable (sha256 policy) in
theorem dispatchOnce_sound_iff (linked : Linked s) (handling : ℕ → Handling) (limit now : Int) :
    DispatchSound (pendingDispatches s now limit)
        (dispatchOnce sha256 policy handling limit now s) ↔
      ∀ records, pendingDispatches s now limit = .ok records →
        Undisturbed sha256 policy handling records s := by
  have scanned : NoRace (pendingDispatches s now limit) := scanLimit_noRace _ _
  rw [dispatchOnce]
  cases hread : pendingDispatches s now limit with
  | error fault =>
    rw [hread] at scanned
    exact ⟨fun _ => nofun, fun _ => ⟨NoRace.error scanned, nofun⟩⟩
  | ok records =>
    constructor
    · rintro sound _ hrecords
      obtain rfl := Except.ok.inj hrecords
      by_contra disturbed
      obtain ⟨message, hlost⟩ := dispatchEach_lost linked disturbed {}
      exact sound.noRace message hlost
    · intro undisturbed
      obtain ⟨outcome, hresult, htotal, hattempted⟩ :=
        dispatchEach_ok linked (undisturbed records rfl) {}
      refine ⟨?_, ?_⟩
      · simp only [hresult]
        exact .ok _
      · rintro _ hrecords
        obtain rfl := Except.ok.inj hrecords
        exact ⟨outcome, hresult, by rw [htotal]; exact Nat.zero_add _, hattempted⟩

/-- The reconcile pass meets no lost race, and its dispatch pass is sound. -/
structure ReconcileSound (sha256 : String → Digest) (policy : JobPolicy) (script : Reconciling)
    (limit : Int) (s : Store) : Prop where
  noRace : NoRace (reconcileOnce sha256 policy script limit s).1
  dispatch : ∀ counts s', reconcileRecovery sha256 policy script limit s = (.ok counts, s') →
    DispatchSound (pendingDispatches s' script.dispatchAt limit)
      (dispatchOnce sha256 policy script.handling limit script.dispatchAt s')

variable (sha256 policy) in
theorem reconcileOnce_sound_iff (linked : Linked s) (script : Reconciling) (limit : Int) :
    ReconcileSound sha256 policy script limit s ↔
      ∀ counts s' records, reconcileRecovery sha256 policy script limit s = (.ok counts, s') →
        pendingDispatches s' script.dispatchAt limit = .ok records →
        Undisturbed sha256 policy script.handling records s' := by
  obtain ⟨recovered, linked'⟩ :=
    reconcileRecovery_noRace sha256 policy linked script limit
  constructor
  · intro sound counts s' records hrecovery hrecords
    rw [hrecovery] at linked'
    exact (dispatchOnce_sound_iff sha256 policy linked' _ _ _).mp
      (sound.dispatch counts s' hrecovery) records hrecords
  · intro undisturbed
    have dispatch : ∀ counts s', reconcileRecovery sha256 policy script limit s =
        (.ok counts, s') → DispatchSound (pendingDispatches s' script.dispatchAt limit)
          (dispatchOnce sha256 policy script.handling limit script.dispatchAt s') := by
      intro counts s' hrecovery
      rw [hrecovery] at linked'
      exact (dispatchOnce_sound_iff sha256 policy linked' _ _ _).mpr
        fun records hrecords => undisturbed counts s' records hrecovery hrecords
    refine ⟨?_, dispatch⟩
    rw [reconcileOnce]
    cases hrecovery : reconcileRecovery sha256 policy script limit s with
    | mk reply s' =>
      rw [hrecovery] at recovered
      cases reply with
      | error fault => exact NoRace.error recovered
      | ok counts =>
        exact (dispatch counts s' hrecovery).noRace.map _

/-- Passes over any reachable store, whatever the other parties do in between: a pass is sound
exactly when every failed send still finds its round pending. -/
theorem passes_sound_iff (ops : List Op) :
    (∀ handling limit now,
      DispatchSound (pendingDispatches (run sha256 policy {} ops) now limit)
          (dispatchOnce sha256 policy handling limit now (run sha256 policy {} ops)) ↔
        ∀ records, pendingDispatches (run sha256 policy {} ops) now limit = .ok records →
          Undisturbed sha256 policy handling records (run sha256 policy {} ops)) ∧
    ∀ script limit, ReconcileSound sha256 policy script limit (run sha256 policy {} ops) ↔
      ∀ counts s' records,
        reconcileRecovery sha256 policy script limit (run sha256 policy {} ops) =
          (.ok counts, s') →
        pendingDispatches s' script.dispatchAt limit = .ok records →
        Undisturbed sha256 policy script.handling records s' :=
  ⟨fun handling limit now => dispatchOnce_sound_iff sha256 policy (run_linked ops) handling limit
      now,
    fun script limit => reconcileOnce_sound_iff sha256 policy (run_linked ops) script limit⟩

def sampleDispatch : DispatchRecord where
  jobId := ⟨1⟩
  runId := ⟨2⟩
  outboxSeq := 1
  dispatchToken := ⟨10⟩
  availableAt := 0

/-- The send of one pass fails after a second pass marked the same round. -/
def sampleRace : ℕ → Handling := fun _ => {
  others := [.markDispatched sampleDispatch 1]
  accepted := false }

theorem failed_send_loses_race :
    ¬ ∀ ops handling limit now,
      DispatchSound (pendingDispatches (run (fun _ => sampleDigest) {} {} ops) now limit)
        (dispatchOnce (fun _ => sampleDigest) {} handling limit now
          (run (fun _ => sampleDigest) {} {} ops)) := by
  intro h
  refine (h [sampleCreate] sampleRace 25 0).noRace "This dispatch round is no longer pending" ?_
  decide +kernel

end AppraisalReview.MemoryJobStore
