import AppraisalReview.JobLaws

set_option autoImplicit false

/-!
# Every live job stays on a recovery path
-/
namespace AppraisalReview.MemoryJobStore

variable {sha256 : String → Digest} {policy : JobPolicy} {s s' : Store}

/-- The outbox holds a round of the job's current run in an accepted state. -/
def HasRound (s : Store) (j : UUID) (job : Job) (accepted : DispatchState → Prop) : Prop :=
  ∃ n entry, s.outbox.get? (j, n) = some entry ∧ entry.runId = job.currentRunId ∧
    accepted entry.dispatchState

structure HandedOver (s : Store) (j : UUID) : Prop where
  queued : ∀ job, s.jobs.get? j = some job → job.status = .queued → HasRound s j job (· = .pending)
  dispatched : ∀ job, s.jobs.get? j = some job → job.status = .dispatched →
    HasRound s j job fun state => state = .pending ∨ state = .sent

theorem HandedOver.of_sameRows {j : UUID} (handed : HandedOver s j) (same : SameRows s s' j) :
    HandedOver s' j where
  queued := by simpa only [HasRound, same.job, same.round] using handed.queued
  dispatched := by simpa only [HasRound, same.job, same.round] using handed.dispatched

theorem HandedOver.of_status {j : UUID} {job : Job} (after : s'.jobs.get? j = some job)
    (hstatus : job.status ≠ .queued ∧ job.status ≠ .dispatched) : HandedOver s' j where
  queued stored h hqueued := by
    obtain rfl := Option.some.inj (after.symm.trans h)
    exact absurd hqueued hstatus.1
  dispatched stored h hdispatched := by
    obtain rfl := Option.some.inj (after.symm.trans h)
    exact absurd hdispatched hstatus.2

theorem HandedOver.of_fresh {j r token : UUID} {job : Job} {seq : ℕ} {availableAt : Int}
    (after : s'.jobs.get? j = some job) (hqueued : job.status = .queued)
    (hcurrent : job.currentRunId = r)
    (outbox : s'.outbox = s.outbox.set (j, seq) (.fresh j r seq token availableAt)) :
    HandedOver s' j where
  queued stored h _ := by
    obtain rfl := Option.some.inj (after.symm.trans h)
    exact ⟨seq, _, by rw [outbox, Dict.get?_set_self], hcurrent.symm, rfl⟩
  dispatched stored h hdispatched := by
    obtain rfl := Option.some.inj (after.symm.trans h)
    exact absurd (hqueued.symm.trans hdispatched) nofun

theorem HasRound.mono {j : UUID} {job : Job} {accepted accepted' : DispatchState → Prop}
    (h : HasRound s j job accepted) (himp : ∀ state, accepted state → accepted' state) :
    HasRound s j job accepted' := by
  obtain ⟨n, entry, hentry, hrun, hstate⟩ := h
  exact ⟨n, entry, hentry, hrun, himp _ hstate⟩

theorem HasRound.of_set {j : UUID} {job job' : Job} {n : ℕ} {entry entry' : Outbox}
    {accepted : DispatchState → Prop} (h : HasRound s j job accepted)
    (outbox : s'.outbox = s.outbox.set (j, n) entry') (hentry : s.outbox.get? (j, n) = some entry)
    (hrun : entry'.runId = entry.runId)
    (hstate : accepted entry.dispatchState → accepted entry'.dispatchState)
    (hcurrent : job'.currentRunId = job.currentRunId) : HasRound s' j job' accepted := by
  obtain ⟨m, found, hfound, hfoundRun, haccepted⟩ := h
  by_cases hm : m = n
  · subst hm
    obtain rfl := Option.some.inj (hentry.symm.trans hfound)
    exact ⟨m, entry', by rw [outbox, Dict.get?_set_self], by rw [hrun, hfoundRun, hcurrent],
      hstate haccepted⟩
  · refine ⟨m, found, ?_, by rw [hfoundRun, hcurrent], haccepted⟩
    rw [outbox, Dict.get?_set_of_ne _ _ (by simpa using hm)]
    exact hfound

theorem Effect.handedOver {op : Op} {reply : Except Fault Reply}
    (h : Effect sha256 policy s op reply s') (handed : HandedOver s op.target) :
    HandedOver s' op.target := by
  cases h with
  | refused | replayed => exact handed
  | created principal submission j r now token _ record job run unused hjob hrun jobs runs
      outbox =>
    have stored : s'.jobs.get? j = some job := by
      rw [jobs]
      exact Dict.get?_set_self ..
    exact .of_fresh stored (by rw [hjob]) (by rw [hjob]) outbox
  | claimed j r owner attemptId leaseSeconds now _ job run attempt hattempt touched =>
    exact .of_status touched.stored ⟨nofun, nofun⟩
  | extended attempt leaseSeconds now _ job run touched hcurrent holds =>
    exact .of_status touched.stored (by simp [holds.running])
  | finished attempt event now problem openTaskIds result _ record job run transition version
      touched hcurrent holds finishes decided =>
    exact .of_status touched.stored (nextState_finish finishes decided).settled
  | reclaimed lease now token _ record job job' run transition deadline touched hcurrent running
      htoken hdeadline expired decided round =>
    obtain ⟨hqueued, rfl, houtbox⟩ | ⟨hqueued, rfl, -⟩ := round
    · exact .of_fresh touched.stored hqueued hcurrent houtbox
    · exact .of_status touched.stored ⟨hqueued, (nextState_leaseExpired_stops decided).2.2⟩
  | flagged j now _ record job run touched running =>
    exact .of_status touched.stored (by simp [running])
  | cancelled j now _ record job job' run hjob touched =>
    exact .of_status touched.stored (by simp [hjob])
  | retried j availableAt now token _ record job job' run hjob touched failed outbox =>
    exact .of_fresh touched.stored (by rw [hjob]) (by rw [hjob]) outbox
  | rejected j r task now _ record job job' run status hjob touched hcurrent waiting member
      hstatus =>
    refine .of_status touched.stored ?_
    rw [hjob]
    obtain ⟨rfl, -⟩ | ⟨rfl, -⟩ := hstatus <;> simp
  | resumed j reference now token _ record job job' current before hcurrent waiting unused
      revised sameCase bare hjob jobs runs outbox =>
    have stored : s'.jobs.get? j = some job' := by simp [jobs]
    exact .of_fresh stored (by rw [hjob]) (by rw [hjob]) outbox
  | dispatched mark now _ record job job' run entry before hentry token pending queued hrun hjob
      jobs runs outbox =>
    have stored : s'.jobs.get? mark.jobId = some job' := by
      rw [jobs]
      exact Dict.get?_set_self ..
    have accepted : HasRound s mark.jobId job fun state => state = .pending ∨ state = .sent :=
      (handed.queued job before queued).mono fun _ => .inl
    refine ⟨fun job'' h hqueued => ?_, fun job'' h _ => ?_⟩
    · obtain rfl := Option.some.inj (stored.symm.trans h)
      rw [hjob] at hqueued
      cases hqueued
    · obtain rfl := Option.some.inj (stored.symm.trans h)
      exact accepted.of_set outbox hentry rfl (fun _ => .inr rfl) (by rw [hjob])
  | confirmed mark now _ record job entry before hentry token pending notQueued hs =>
    subst hs
    have stored : (s.jobs.set mark.jobId { job with updatedAt := now }).get? mark.jobId =
        some { job with updatedAt := now } := Dict.get?_set_self ..
    refine ⟨fun job' h hqueued => ?_, fun job' h hdispatched => ?_⟩
    · obtain rfl := Option.some.inj (stored.symm.trans h)
      exact absurd hqueued notQueued
    · obtain rfl := Option.some.inj (stored.symm.trans h)
      exact (handed.dispatched job before hdispatched).of_set rfl hentry rfl
        (fun _ => .inr rfl) rfl
  | abandoned mark availableAt job entry before hentry token pending terminal =>
    refine .of_status before ?_
    constructor <;> (intro hstatus; rw [hstatus] at terminal; cases terminal)
  | deferred mark availableAt job entry before hentry =>
    exact ⟨fun job' h hqueued => (handed.queued job' h hqueued).of_set rfl hentry rfl id rfl,
      fun job' h hdispatched => (handed.dispatched job' h hdispatched).of_set rfl hentry rfl id rfl⟩

theorem mapM_ok {α β : Type} (f : α → Except Fault β) (rows : List α)
    (h : ∀ row ∈ rows, ∃ value, f row = .ok value) :
    ∃ values, rows.mapM f = .ok values ∧
      ∀ row ∈ rows, ∀ value, f row = .ok value → value ∈ values := by
  induction rows with
  | nil => exact ⟨[], rfl, nofun⟩
  | cons row rows ih =>
    obtain ⟨first, hfirst⟩ := h row (List.mem_cons_self ..)
    obtain ⟨rest, hrest, hmem⟩ := ih fun row' hrow => h row' (List.mem_cons_of_mem _ hrow)
    refine ⟨first :: rest, ?_, ?_⟩
    · rw [List.mapM_cons, hfirst, hrest]
      rfl
    · rintro row' hrow value hvalue
      obtain rfl | hrow := List.mem_cons.mp hrow
      · obtain rfl := Except.ok.inj (hfirst.symm.trans hvalue)
        exact List.mem_cons_self ..
      · exact List.mem_cons_of_mem _ (hmem row' hrow value hvalue)

theorem scanLimit_all {α : Type} {limit : Int} {found : List α} (hpositive : 1 ≤ limit)
    (hlimit : (found.length : Int) ≤ limit) : scanLimit limit found = .ok found := by
  rw [scanLimit, if_neg (by omega), List.take_of_length_le (by omega)]

theorem expiredEntry_ok (linked : Linked s) (now : Int) (item : (UUID × UUID) × Run)
    (hitem : item ∈ s.runs.items) : ∃ found, expiredEntry s now item = .ok found := by
  obtain ⟨⟨j, r⟩, run⟩ := item
  obtain ⟨job, hjob⟩ := (linked j).owner r run ((Dict.mem_items ..).mp hitem)
  unfold expiredEntry
  split
  · exact ⟨none, rfl⟩
  · split_ifs
    · exact ⟨none, rfl⟩
    · simp only [hjob]
      split_ifs <;> exact ⟨_, rfl⟩

/-- `expired_leases` returns the lease of every running job once its deadline has passed. -/
theorem expiredLeases_complete (linked : Linked s) {j : UUID} {job : Job} {run : Run}
    {deadline : Int} (hjob : s.jobs.get? j = some job)
    (hrun : s.runs.get? (j, job.currentRunId) = some run) (hrunning : job.status = .running)
    (hdeadline : run.leaseExpiresAt = some deadline) {now : Int} (hnow : deadline ≤ now) :
    ∃ bound : Int, ∀ limit ≥ bound, ∃ found, expiredLeases s now limit = .ok found ∧
      { jobId := j, runId := job.currentRunId, fencingToken := run.fencingToken,
        leaseExpiresAt := deadline } ∈ found := by
  obtain ⟨entries, hentries, hmem⟩ := mapM_ok (expiredEntry s now) s.runs.items
    fun item hitem => expiredEntry_ok linked now item hitem
  have hentry : expiredEntry s now ((j, job.currentRunId), run) = .ok (some {
      jobId := j, runId := job.currentRunId, fencingToken := run.fencingToken,
      leaseExpiresAt := deadline }) := by
    simp only [expiredEntry, hdeadline, if_neg (Int.not_lt.mpr hnow), hjob, hrunning, if_true,
      (linked j).runId _ _ hrun]
  have hfound := hmem _ ((Dict.mem_items ..).mpr hrun) _ hentry
  refine ⟨max 1 entries.length, fun limit hlimit => ?_⟩
  unfold expiredLeases
  rw [if_neg (by omega), hentries]
  refine ⟨_, rfl, ?_⟩
  have hlength := List.length_filterMap_le id entries
  rw [List.take_of_length_le (by rw [List.length_insertionSort]; omega), List.mem_insertionSort]
  exact List.mem_filterMap.mpr ⟨_, hfound, rfl⟩

/-- `stranded_retryables` returns every retryable job that has waited long enough. -/
theorem strandedRetryables_complete (linked : Linked s) {j : UUID} {job : Job}
    (hjob : s.jobs.get? j = some job) (hstatus : job.status = .retryableFailed) {cutoff : Int}
    (hcutoff : job.updatedAt ≤ cutoff) :
    ∃ bound : Int, ∀ limit ≥ bound, ∃ found record, strandedRetryables s cutoff limit = .ok found ∧
      s.record job = .ok record ∧ record ∈ found := by
  obtain ⟨record, hrecord⟩ := linked.record_ok hjob
  let stranded := s.jobs.values.filter fun job =>
    job.status = .retryableFailed ∧ job.updatedAt ≤ cutoff
  let ordered := stranded.insertionSort fun a b => a.updatedAt ≤ b.updatedAt
  have hmember : job ∈ ordered := by
    rw [List.mem_insertionSort]
    exact List.mem_filter.mpr ⟨(Dict.mem_values ..).mpr ⟨j, hjob⟩, by simp [hstatus, hcutoff]⟩
  obtain ⟨records, hrecords, hmem⟩ := mapM_ok s.record ordered fun row hrow => by
    rw [List.mem_insertionSort] at hrow
    obtain ⟨k, hk⟩ := (Dict.mem_values ..).mp (List.mem_filter.mp hrow).1
    exact linked.record_ok hk
  refine ⟨max 1 ordered.length, fun limit hlimit => ⟨records, record, ?_, hrecord,
    hmem job hmember record hrecord⟩⟩
  have hscan : scanLimit limit ordered = .ok ordered := scanLimit_all (by omega) (by omega)
  simp only [ordered, stranded] at hscan
  simp only [strandedRetryables, hscan]
  exact hrecords

/-- The path that brings a live job back to a worker or to a person. -/
def Recoverable (s : Store) (j : UUID) (job : Job) : Prop :=
  match job.status with
  | .queued => HasRound s j job (· = .pending)
  | .dispatched => HasRound s j job fun state => state = .pending ∨ state = .sent
  | .running => ∃ run deadline, s.runs.get? (j, job.currentRunId) = some run ∧
      run.leaseOwner.isSome = true ∧ run.attemptId.isSome = true ∧
      run.leaseExpiresAt = some deadline ∧
      ∀ now ≥ deadline, ∃ bound : Int, ∀ limit ≥ bound, ∃ found,
        expiredLeases s now limit = .ok found ∧
          { jobId := j, runId := job.currentRunId, fencingToken := run.fencingToken,
            leaseExpiresAt := deadline } ∈ found
  | .retryableFailed => ∀ cutoff ≥ job.updatedAt, ∃ bound : Int, ∀ limit ≥ bound,
      ∃ found record, strandedRetryables s cutoff limit = .ok found ∧
        s.record job = .ok record ∧ record ∈ found
  | .waitingForHuman => job.openTaskIds ≠ []
  | .failed | .succeeded | .cancelled => True

theorem run_handedOver (ops : List Op) (j : UUID) :
    HandedOver (run sha256 policy {} ops) j :=
  run_invariant_at HandedOver (fun _ _ _ same _ handed => handed.of_sameRows same)
    (fun _ _ _ _ _ effect handed => effect.handedOver handed)
    (fun _ => ⟨fun _ h => absurd h (noJob_empty _ _), fun _ h => absurd h (noJob_empty _ _)⟩) ops j

/-- No sequence of calls strands a job. -/
theorem run_recoverable (ops : List Op) (j : UUID) (job : Job)
    (hjob : (run sha256 policy {} ops).jobs.get? j = some job) :
    Recoverable (run sha256 policy {} ops) j job := by
  have linked : Linked (run sha256 policy {} ops) := run_linked ops
  have handed : HandedOver (run sha256 policy {} ops) j := run_handedOver ops j
  obtain ⟨current, hcurrent⟩ := (linked j).current job hjob
  unfold Recoverable
  split
  case h_1 hstatus => exact handed.queued job hjob hstatus
  case h_2 hstatus => exact handed.dispatched job hjob hstatus
  case h_3 hstatus =>
    obtain ⟨howner, hdeadline, hattempt⟩ :=
      ((linked j).leased job current hjob hcurrent).running hstatus
    obtain ⟨deadline, hdeadline⟩ := Option.isSome_iff_exists.mp hdeadline
    exact ⟨current, deadline, hcurrent, howner, hattempt, hdeadline, fun now hnow =>
      expiredLeases_complete linked hjob hcurrent hstatus hdeadline hnow⟩
  case h_4 hstatus =>
    exact fun cutoff hcutoff => strandedRetryables_complete linked hjob hstatus hcutoff
  case h_5 hstatus => exact ((run_lawful ops j).law job current hjob hcurrent).waiting hstatus
  all_goals trivial

/-- The created job waits in the queue with its first round. -/
theorem run_recoverable_created :
    ∃ job, (run (fun _ => sampleDigest) {} {} [sampleCreate]).jobs.get? ⟨1⟩ = some job ∧
      job.status = .queued ∧ Recoverable (run (fun _ => sampleDigest) {} {} [sampleCreate]) ⟨1⟩ job :=
  ⟨_, rfl, rfl, run_recoverable [sampleCreate] ⟨1⟩ _ rfl⟩

end AppraisalReview.MemoryJobStore
