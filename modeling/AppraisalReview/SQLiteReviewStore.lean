import AppraisalReview.JobFencing
import AppraisalReview.Raising

set_option autoImplicit false

/-!
# The review store on SQLite

Every call is one transaction over the tables of the reference store, with
checks of its own before them. A raise rolls the transaction back.
-/
namespace AppraisalReview.MemoryJobStore

variable {sha256 : String → Digest} {policy : JobPolicy} {s s' : Store}

theorem Touched.documents {j : UUID} {job job' : Job} {run run' : Run}
    (touched : Touched s s' j job run job' run') (h : run'.documents = run.documents)
    (key : UUID × UUID) (old : Run) (hold : s.runs.get? key = some old) :
    ∃ new, s'.runs.get? key = some new ∧ new.documents = old.documents := by
  rw [touched.runs]
  split_ifs with hkey
  · subst hkey
    obtain rfl := Option.some.inj (touched.current.symm.trans hold)
    exact ⟨run', rfl, h⟩
  · exact ⟨old, hold, rfl⟩

theorem documents_set {key : UUID × UUID} {run : Run} (runs : s'.runs = s.runs.set key run)
    (h : ∀ old, s.runs.get? key = some old → run.documents = old.documents) (key' : UUID × UUID)
    (old : Run) (hold : s.runs.get? key' = some old) :
    ∃ new, s'.runs.get? key' = some new ∧ new.documents = old.documents := by
  rw [runs, Dict.get?_set]
  split_ifs with hkey
  · subst hkey
    exact ⟨run, rfl, h old hold⟩
  · exact ⟨old, hold, rfl⟩

theorem Effect.documents {op : Op} {reply : Except Fault Reply} (linked : Linked s)
    (h : Effect sha256 policy s op reply s') (key : UUID × UUID) (old : Run)
    (hold : s.runs.get? key = some old) :
    ∃ new, s'.runs.get? key = some new ∧ new.documents = old.documents := by
  cases h with
  | refused | replayed | abandoned | deferred => exact ⟨old, hold, rfl⟩
  | created principal submission j r now token _ record job run unused hjob hrun jobs runs =>
    refine documents_set runs (fun other hother => ?_) key old hold
    obtain ⟨known, hknown⟩ := (linked j).owner _ _ hother
    exact absurd (hknown.symm.trans unused) (Option.some_ne_none _)
  | claimed j r owner attemptId leaseSeconds now _ job run attempt hattempt touched =>
    exact touched.documents rfl key old hold
  | extended attempt leaseSeconds now _ job run touched =>
    exact touched.documents rfl key old hold
  | finished attempt event now problem openTaskIds result _ record job run transition version
      touched => exact touched.documents rfl key old hold
  | reclaimed lease now token _ record job job' run transition deadline touched =>
    exact touched.documents rfl key old hold
  | flagged j now _ record job run touched => exact touched.documents rfl key old hold
  | cancelled j now _ record job job' run hjob touched =>
    exact touched.documents rfl key old hold
  | retried j availableAt now token _ record job job' run hjob touched =>
    exact touched.documents rfl key old hold
  | rejected j r task now _ record job job' run status hjob touched =>
    exact touched.documents rfl key old hold
  | resumed j reference now token _ record job job' current before hcurrent waiting unused
      revised sameCase bare hjob jobs runs =>
    refine documents_set runs (fun other hother => ?_) key old hold
    exact absurd (hother.symm.trans unused) (Option.some_ne_none _)
  | dispatched mark now _ record job job' run entry before hentry token pending queued hrun hjob
      jobs runs =>
    refine documents_set runs (fun other hother => ?_) key old hold
    obtain rfl := Option.some.inj (hrun.symm.trans hother)
    rfl
  | confirmed mark now _ record job entry before hentry token pending notQueued hs =>
    subst hs
    exact ⟨old, hold, rfl⟩

end AppraisalReview.MemoryJobStore

namespace AppraisalReview.SQLiteReviewStore
open Raising
open CanonicalJson (dumps)
open MemoryJobStore (Store Job Run Linked LinkedAt Lost RunStep)

/-- What the table of result bodies keeps of a body: whose it is, and its canonical text. -/
structure ResultBody where
  run : RunReference
  resultVersion : ℕ
  canonical : String

/-- A row of `review_results`. -/
structure Candidate where
  runId : UUID
  version : ℕ
  attemptId : UUID
  digest : Digest
  canonical : String

structure Tables where
  store : Store := {}
  candidates : List Candidate := []

inductive Op where
  /-- A call of the job store. `snapshot` has the documents of the revision that a resumed run
  names, when the task tables hold that revision. -/
  | job (op : MemoryJobStore.Op) (snapshot : Option (List DocumentReference))
  /-- A committed response that resumes its job with the documents of the new revision. -/
  | respond (jobId : UUID) (run : RunReference) (documents : List DocumentReference) (now : Int)
      (token : UUID)
  | put (runId : UUID) (resultVersion : ℕ) (body : ResultBody)

inductive Reply where
  | job (reply : MemoryJobStore.Reply)
  | staged (digest : Digest)

def refuse {α : Type} (message : String) : Except Fault α := .error (.conditionFailed message)

def refuseIf (condition : Prop) [Decidable condition] (message : String) : Except Fault Unit :=
  if condition then refuse message else .ok ()

/-- `_authority`: the attempt holds an unexpired lease of its job's current run. -/
def authority (s : Store) (attempt : ClaimedAttempt) (now : Int) : Except Fault Job := do
  let (job, run) ← MemoryJobStore.authority s attempt
  refuseIf (job.currentRunId ≠ attempt.runId ∨ ¬ run.leaseExpiresAt.any (now < ·) ∨
      run.resultVersion ≠ attempt.expectedResultVersion)
    "Attempt is expired, superseded or has a stale result version"
  pure job

/-- A version whose bodies are staged is published with the digest of the attempt's own body. -/
def foreign (candidates : List Candidate) (attempt : ClaimedAttempt) (result : ResultReference) :
    Prop :=
  let staged := candidates.filter fun row =>
    row.runId = result.runId ∧ row.version = result.resultVersion
  staged ≠ [] ∧ ∀ row ∈ staged, ¬ (row.attemptId = attempt.attemptId ∧
    row.digest = result.resultDigest)

instance (candidates : List Candidate) (attempt : ClaimedAttempt) (result : ResultReference) :
    Decidable (foreign candidates attempt result) := by
  unfold foreign
  infer_instance

def checks (t : Tables) : MemoryJobStore.Op → Except Fault Unit
  | .createJob _ _ jobId runId _ _ =>
    refuseIf (∃ key ∈ t.store.runs.keys, key.2 = runId ∧ key.1 ≠ jobId)
      "Run identity already belongs to another job"
  | .heartbeat attempt _ now => do
    let _ ← authority t.store attempt now
  | .finish attempt event now _ _ result => do
    let job ← authority t.store attempt now
    refuseIf (event = .publishResult ∧ job.cancelRequested = true)
      "Cancelled attempts cannot publish results"
    refuseIf (∃ reference ∈ result, foreign t.candidates attempt reference)
      "Result digest does not belong to the publishing attempt"
  | .resumeAfterHuman _ run _ _ =>
    refuseIf (∃ key ∈ t.store.runs.keys, key.2 = run.runId) "Run identity already exists"
  | _ => .ok ()

section
variable (sha256 : String → Digest)

/-- The digest of the submission that a run stands for, or what its validator raises. -/
def runDigest (revision : RevisionReference) (documents : List DocumentReference) :
    Except Fault Digest :=
  if 2 ≤ documents.length ∧ (documents.map DocumentReference.documentId).Nodup ∧
      ∀ document ∈ documents, document.caseId = revision.caseId then
    .ok (sha256 (dumps (canonicalSubmission revision documents)))
  else .error (.valueError "Invalid review submission")

def Run.bound (run : Run) (documents : List DocumentReference) (digest : Digest) : Run :=
  { run with documents := documents, payloadDigest := digest }

/-- Execution metadata is bound to the new revision instead of the old run's. -/
def rebind (s : Store) (jobId runId : UUID) (documents : Option (List DocumentReference)) :
    Except Fault Store :=
  match s.runs.get? (jobId, runId) with
  | none => .error .keyError
  | some run => do
    let digest ← runDigest sha256 run.revision (documents.getD run.documents)
    pure { s with
      runs := s.runs.set (jobId, runId) (Run.bound run (documents.getD run.documents) digest) }

variable (policy : JobPolicy)

def called (s : Store) (op : MemoryJobStore.Op) : Except Fault (MemoryJobStore.Reply × Store) :=
  let outcome := MemoryJobStore.step sha256 policy s op
  outcome.1.map (·, outcome.2)

def resume (t : Tables) (jobId : UUID) (run : RunReference) (now : Int) (token : UUID)
    (documents : Option (List DocumentReference)) : Except Fault (Reply × Tables) := do
  let (reply, s) ← called sha256 policy t.store (.resumeAfterHuman jobId run now token)
  let s ← rebind sha256 s jobId run.runId documents
  pure (.job reply, { t with store := s })

structure Stages (clock : Int) (job : Job) (run : Run) (body : ResultBody) : Prop where
  current : job.currentRunId = body.run.runId
  running : job.status = .running
  uncancelled : job.cancelRequested = false
  attempt : run.attemptId = body.run.attemptId
  unexpired : ∃ deadline ∈ run.leaseExpiresAt, clock < deadline
  revision : run.revision = body.run.revision
  next : run.resultVersion + 1 = body.resultVersion

instance (clock : Int) (job : Job) (run : Run) (body : ResultBody) :
    Decidable (Stages clock job run body) :=
  decidable_of_iff
    (job.currentRunId = body.run.runId ∧ job.status = .running ∧ job.cancelRequested = false ∧
      run.attemptId = body.run.attemptId ∧ (∃ deadline ∈ run.leaseExpiresAt, clock < deadline) ∧
      run.revision = body.run.revision ∧ run.resultVersion + 1 = body.resultVersion)
    ⟨fun ⟨a, b, c, d, e, f, g⟩ => ⟨a, b, c, d, e, f, g⟩,
      fun ⟨a, b, c, d, e, f, g⟩ => ⟨a, b, c, d, e, f, g⟩⟩

def runOf (s : Store) (runId : UUID) : Except Fault (Job × Run) :=
  match s.runs.items.filter fun row => row.1.2 = runId with
  | [((jobId, _), run)] =>
    match s.jobs.get? jobId with
    | none => .error .keyError
    | some job => .ok (job, run)
  | _ => refuse "Unknown result run"

def put (clock : Int) (t : Tables) (runId : UUID) (resultVersion : ℕ) (body : ResultBody) :
    Except Fault (Digest × Tables) :=
  match body.run.attemptId with
  | none => .error (.service .conflict)
  | some attemptId =>
    if body.run.runId ≠ runId ∨ body.resultVersion ≠ resultVersion ∨ resultVersion < 1 then
      .error (.service .conflict)
    else
      let digest := sha256 body.canonical
      match t.candidates.find? fun row =>
          row.runId = runId ∧ row.version = resultVersion ∧ row.attemptId = attemptId with
      | some row =>
        if row.digest ≠ digest ∨ row.canonical ≠ body.canonical then .error (.service .conflict)
        else .ok (digest, t)
      | none => do
        let (job, run) ← runOf t.store runId
        refuseIf (¬ Stages clock job run body) "Only the current attempt may stage result bytes"
        pure (digest, { t with
          candidates := t.candidates ++ [{
            runId := runId, version := resultVersion, attemptId := attemptId
            digest := digest, canonical := body.canonical }] })

def transaction (clock : Int) (t : Tables) : Op → Except Fault (Reply × Tables)
  | .job (.resumeAfterHuman jobId run now token) snapshot => do
    checks t (.resumeAfterHuman jobId run now token)
    resume sha256 policy t jobId run now token snapshot
  | .job op _ => do
    checks t op
    let (reply, s) ← called sha256 policy t.store op
    pure (.job reply, { t with store := s })
  | .respond jobId run documents now token =>
    resume sha256 policy t jobId run now token (some documents)
  | .put runId resultVersion body => do
    let (digest, t) ← put sha256 clock t runId resultVersion body
    pure (.staged digest, t)

def step (clock : Int) (t : Tables) (op : Op) : Except Fault Reply × Tables :=
  match transaction sha256 policy clock t op with
  | .ok (reply, t') => (.ok reply, t')
  | .error fault => (.error fault, t)

end

structure Moves (s s' : Store) : Prop where
  linked : Linked s'
  runs : ∀ key run, s.runs.get? key = some run →
    ∃ run', s'.runs.get? key = some run' ∧ RunStep run run' ∧ run'.documents = run.documents

theorem Moves.refl {s : Store} (linked : Linked s) : Moves s s :=
  ⟨linked, fun _ run hrun => ⟨run, hrun, .refl run, rfl⟩⟩

theorem Moves.lost {s s' : Store} (h : Moves s s') {attempt : ClaimedAttempt}
    (lost : Lost s attempt) : Lost s' attempt := by
  obtain ⟨run, hrun, hlost⟩ := lost
  obtain ⟨run', hrun', hstep, -⟩ := h.runs _ run hrun
  exact ⟨run', hrun', hstep.lost hlost⟩

variable {sha256 : String → Digest} {policy : JobPolicy} {s s' : Store} {t t' : Tables}

theorem called_ok {op : MemoryJobStore.Op} {reply : MemoryJobStore.Reply}
    (h : called sha256 policy s op = .ok (reply, s')) :
    (MemoryJobStore.step sha256 policy s op).1 = .ok reply ∧
      s' = (MemoryJobStore.step sha256 policy s op).2 := by
  simp only [called] at h
  cases hreply : (MemoryJobStore.step sha256 policy s op).1 with
  | error fault =>
    rw [hreply] at h
    cases h
  | ok answer =>
    rw [hreply] at h
    obtain ⟨rfl, rfl⟩ := Prod.mk.inj (Except.ok.inj h)
    exact ⟨rfl, rfl⟩

theorem called_moves (linked : Linked s) {op : MemoryJobStore.Op} {reply : MemoryJobStore.Reply}
    (h : called sha256 policy s op = .ok (reply, s')) : Moves s s' := by
  obtain ⟨-, rfl⟩ := called_ok h
  have effect := MemoryJobStore.step_effect sha256 policy linked op
  refine ⟨MemoryJobStore.step_linked _ _ linked op, fun key run hrun => ?_⟩
  obtain ⟨run', hrun', hstep⟩ := effect.runStep linked key run hrun
  obtain ⟨other, hother, hdocuments⟩ := effect.documents linked key run hrun
  obtain rfl := Option.some.inj (hrun'.symm.trans hother)
  exact ⟨run', hrun', hstep, hdocuments⟩

theorem rebind_ok {jobId runId : UUID} {documents : Option (List DocumentReference)}
    (h : rebind sha256 s jobId runId documents = .ok s') :
    ∃ run bound digest, s.runs.get? (jobId, runId) = some run ∧
      s' = { s with runs := s.runs.set (jobId, runId) (Run.bound run bound digest) } := by
  unfold rebind at h
  split at h
  · cases h
  · next run hrun =>
    obtain ⟨digest, -, h⟩ := bind_ok.mp h
    exact ⟨run, _, digest, hrun, (pure_ok.mp h).symm⟩

theorem bound_linked (linked : Linked s) {key : UUID × UUID} {run : Run}
    (hrun : s.runs.get? key = some run) (documents : List DocumentReference) (digest : Digest) :
    Linked { s with runs := s.runs.set key (Run.bound run documents digest) } := by
  intro j
  refine (linked j).of_identity rfl (fun r => ?_) fun _ => rfl
  rw [Dict.get?_set]
  split_ifs with hkey
  · rw [hkey, hrun]
    rfl
  · rfl

/-- Nothing was stored under the run that a job is resumed on, so rebinding it changes no row
that was there before. -/
theorem resume_moves (linked : Linked t.store) {jobId : UUID} {run : RunReference}
    {now : Int} {token : UUID} {documents : Option (List DocumentReference)} {reply : Reply}
    (h : resume sha256 policy t jobId run now token documents = .ok (reply, t')) :
    Moves t.store t'.store := by
  obtain ⟨⟨first, s⟩, hcalled, h⟩ := bind_ok.mp h
  obtain ⟨rebound, hrebind, h⟩ := bind_ok.mp h
  obtain ⟨-, rfl⟩ := Prod.mk.inj (pure_ok.mp h)
  have moves := called_moves linked hcalled
  have unused : t.store.runs.get? (jobId, run.runId) = none := by
    obtain ⟨hreply, -⟩ := called_ok hcalled
    have effect := MemoryJobStore.step_effect sha256 policy linked
      (.resumeAfterHuman jobId run now token)
    rw [hreply] at effect
    cases effect
    assumption
  obtain ⟨stored, bound, digest, hstored, rfl⟩ := rebind_ok hrebind
  refine ⟨bound_linked moves.linked hstored bound digest, fun key old hold => ?_⟩
  have hkey : key ≠ (jobId, run.runId) := by
    rintro rfl
    cases unused.symm.trans hold
  obtain ⟨new, hnew, hstep⟩ := moves.runs key old hold
  exact ⟨new, (Dict.get?_set_of_ne _ _ hkey).trans hnew, hstep⟩

theorem put_store {clock : Int} {runId : UUID} {resultVersion : ℕ} {body : ResultBody}
    {digest : Digest} (h : put sha256 clock t runId resultVersion body = .ok (digest, t')) :
    t'.store = t.store := by
  unfold put at h
  split at h
  · cases h
  · split at h
    · cases h
    · dsimp only at h
      split at h
      · split at h
        · cases h
        · obtain ⟨-, rfl⟩ := Prod.mk.inj (Except.ok.inj h)
          rfl
      · obtain ⟨⟨job, run⟩, -, h⟩ := bind_ok.mp h
        obtain ⟨_, -, h⟩ := bind_ok.mp h
        obtain ⟨-, rfl⟩ := Prod.mk.inj (pure_ok.mp h)
        rfl

theorem transaction_moves (linked : Linked t.store) {clock : Int} {op : Op} {reply : Reply}
    (h : transaction sha256 policy clock t op = .ok (reply, t')) : Moves t.store t'.store := by
  unfold transaction at h
  split at h
  · obtain ⟨_, -, h⟩ := bind_ok.mp h
    exact resume_moves linked h
  · obtain ⟨_, -, h⟩ := bind_ok.mp h
    obtain ⟨⟨answer, s⟩, hcalled, h⟩ := bind_ok.mp h
    obtain ⟨-, rfl⟩ := Prod.mk.inj (pure_ok.mp h)
    exact called_moves linked hcalled
  · exact resume_moves linked h
  · obtain ⟨⟨digest, t₁⟩, hput, h⟩ := bind_ok.mp h
    obtain ⟨-, rfl⟩ := Prod.mk.inj (pure_ok.mp h)
    rw [put_store hput]
    exact .refl linked

variable (sha256 policy) in
theorem step_moves (linked : Linked t.store) (clock : Int) (op : Op) :
    Moves t.store (step sha256 policy clock t op).2.store := by
  unfold step
  cases h : transaction sha256 policy clock t op with
  | error fault => exact .refl linked
  | ok answer => exact transaction_moves linked h

end AppraisalReview.SQLiteReviewStore
