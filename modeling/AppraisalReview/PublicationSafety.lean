import AppraisalReview.PublicationCalls

set_option autoImplicit false

/-!
# Fenced publication and final revocation

Whatever calls are started, in whatever order their transactions run, and
whichever of them never finish.
-/
namespace AppraisalReview.Publication
open Interleaving ArtifactPublication Raising
open MemoryJobStore (Store Job Run Attempt Linked Lost)

variable {platform : Platform} {db db' : Database} {seen : List (Weather × Database)}

section
variable (platform)

abbrev reach (events : List (Event Weather Request)) : Calls :=
  run platform { store := {} } events

theorem consistent_empty : Consistent platform {} where
  linked := MemoryJobStore.linked_empty
  access key row hrow := by cases hrow
  grants key row hrow := by cases hrow
  backed key row hrow := by cases hrow

theorem reach_evolved (events later : List (Event Weather Request)) :
    Evolves platform (reach platform events).store (reach platform (events ++ later)).store :=
  Pool.run_evolved .refl .trans program_ends events later

theorem reach_consistent (events : List (Event Weather Request)) :
    Consistent platform (reach platform events).store :=
  (reach_evolved platform [] events).consistent (consistent_empty platform)

end

def Request.caseId : Request → Option OpaqueID
  | .approveExact _ candidate _ | .commit candidate .. | .publish _ candidate .. =>
    some candidate.caseId
  | .authorize _ caseId _ | .read caseId _ | .verifiedBytes _ _ caseId .. => some caseId
  | .job _ | .create .. | .revoke _ => none

def Request.proposal : Request → Option (ManifestCandidate × ℕ × PublicationAttempt)
  | .commit candidate token _ attempt | .publish _ candidate token _ attempt =>
    some (candidate, token, attempt)
  | _ => none

/-- Who commits; a read has no caller of its own. -/
def Request.caller : Request → Option Principal
  | .commit _ _ principal _ | .publish _ _ _ principal _ => some principal
  | _ => none

theorem post_open {request : Request} {result : Result} {caseId : OpaqueID}
    (h : Post platform request result seen db) (hcase : request.caseId = some caseId)
    (hresult : result ≠ .nothing) : Open db caseId := by
  cases request with
  | job _ | create _ _ _ | revoke _ => cases hcase
  | approveExact _ candidate _ =>
    obtain rfl := Option.some.inj hcase
    cases result <;> first | exact h | exact h.elim
  | authorize _ caseId _ =>
    obtain rfl := Option.some.inj hcase
    cases result <;> first | exact h | exact h.elim
  | commit candidate token principal attempt =>
    obtain rfl := Option.some.inj hcase
    cases result <;> first | exact h.choose_spec.2.opened | exact h.elim
  | publish _ candidate token principal attempt =>
    obtain rfl := Option.some.inj hcase
    cases result <;> first | exact h.1.choose_spec.2.opened | exact h.elim
  | read caseId runId =>
    obtain rfl := Option.some.inj hcase
    cases result <;>
      first | exact h.choose_spec.2.opened | exact absurd rfl hresult | exact h.elim
  | verifiedBytes _ _ caseId runId artifactId =>
    obtain rfl := Option.some.inj hcase
    cases result <;> first | exact h.opened | exact h.elim

theorem post_committed {request : Request} {result : Result} {candidate : ManifestCandidate}
    {token : ℕ} {attempt : PublicationAttempt} (h : Post platform request result seen db)
    (proposes : request.proposal = some (candidate, token, attempt)) :
    ∃ weather principal manifest, result = .manifest manifest ∧
      seen.getLast? = some (weather, db) ∧
      Committed platform weather.clock db candidate token principal attempt manifest := by
  cases request with
  | commit candidate' token' principal attempt' =>
    cases proposes
    cases result <;> try exact h.elim
    obtain ⟨weather, last, committed⟩ := h
    exact ⟨weather, _, _, rfl, last, committed⟩
  | publish _ candidate' token' principal attempt' =>
    cases proposes
    cases result <;> try exact h.elim
    obtain ⟨⟨weather, last, committed⟩, -⟩ := h
    exact ⟨weather, _, _, rfl, last, committed⟩
  | job | create | approveExact | revoke | authorize | read | verifiedBytes => cases proposes

theorem post_manifest {request : Request} {result : CommittedManifest}
    (h : Post platform request (.manifest result) seen db) :
    ∃ weather, seen.getLast? = some (weather, db) ∧
      ((∃ candidate token principal attempt,
          request.proposal = some (candidate, token, attempt) ∧ request.caller = some principal ∧
          Committed platform weather.clock db candidate token principal attempt result) ∨
        ∃ caseId runId, request = .read caseId runId ∧
          ReadAt platform weather.clock db caseId runId result) := by
  cases request with
  | commit candidate token principal attempt =>
    obtain ⟨weather, last, committed⟩ := h
    exact ⟨weather, last, .inl ⟨_, _, _, _, rfl, rfl, committed⟩⟩
  | publish _ candidate token principal attempt =>
    obtain ⟨⟨weather, last, committed⟩, -⟩ := h
    exact ⟨weather, last, .inl ⟨_, _, _, _, rfl, rfl, committed⟩⟩
  | read caseId runId =>
    obtain ⟨weather, last, readAt⟩ := h
    exact ⟨weather, last, .inr ⟨caseId, runId, rfl, readAt⟩⟩
  | job | create | approveExact | revoke | authorize | verifiedBytes => exact h.elim

theorem post_standing {request : Request} {result : CommittedManifest}
    (h : Post platform request (.manifest result) seen db) : Standing db result := by
  obtain ⟨_, -, ⟨_, _, _, _, -, -, committed⟩ | ⟨_, _, -, readAt⟩⟩ := post_manifest h
  · exact committed.standing
  · exact readAt.standing

def samplePlatform : Platform where
  textDigest _ := MemoryJobStore.sampleDigest
  bodyDigest _ := MemoryJobStore.sampleDigest
  digest _ := MemoryJobStore.otherDigest
  opens _ _ := true
  policy := .standard

def sampleCase : OpaqueID := ⟨"case-1", sampleCase_text⟩

def samplePublisher : Principal :=
  { MemoryJobStore.samplePrincipal with permissions := [.review, .publish] }

theorem template_text : opaqueText "template" = true := by decide

def sampleKey (attempt : UUID) : ArtifactKey where
  caseId := sampleCase
  runId := ⟨2⟩
  attemptId := attempt
  artifactId := ⟨30⟩

def sampleArtifact (attempt : UUID) : PublishedArtifact where
  artifactId := ⟨30⟩
  key := sampleKey attempt
  contentHash := MemoryJobStore.sampleDigest
  objectVersion := some MemoryJobStore.sampleDigest.text
  fontHash := some MemoryJobStore.sampleDigest
  sizeBytes := 4
  writerVersion := "2"
  templateId := ⟨"template", template_text⟩
  templateVersion := ⟨"template", template_text⟩
  templateHash := MemoryJobStore.sampleDigest
  fieldMapHash := MemoryJobStore.sampleDigest
  fieldIds := ["field"]
  pageCount := 1
  sourceVersions := sourcesOf MemoryJobStore.sampleSubmission.documents
  sized := by decide
  named := by decide
  coherentKey := ⟨rfl, List.nodup_singleton _⟩

def sampleCandidate (attempt : UUID) : ManifestCandidate where
  run := {
    runId := ⟨2⟩, revision := MemoryJobStore.sampleRevision 0, attemptId := some attempt }
  resultVersion := 1
  reviewStatus := .completed
  artifacts := [sampleArtifact attempt]
  numbered := ⟨le_refl _, List.cons_ne_nil _ _⟩
  distinct := ⟨List.nodup_singleton _, List.nodup_singleton _⟩
  attemptScoped := List.forall_mem_singleton.mpr rfl
  attempted := rfl

def sampleConfiguration : Configuration where
  trustedSyntheticApproval := true

def sampleBytes : Bytes := [37, 80, 68, 70]

def sampleCreate (attempt : UUID) : Request :=
  .create sampleConfiguration (sampleKey attempt) sampleBytes

def sampleApprove (attempt : UUID) : Request :=
  .approveExact sampleConfiguration (sampleCandidate attempt) samplePublisher

def sampleCommit (attempt : UUID) (token : ℕ) : Request :=
  .commit (sampleCandidate attempt) token samplePublisher
    { jobId := ⟨1⟩, owner := ⟨3⟩, expectedResultVersion := 0 }

def sampleDownload : Request :=
  .verifiedBytes sampleConfiguration samplePublisher sampleCase ⟨2⟩ ⟨30⟩

def sampleLease : ExpiredLease where
  jobId := ⟨1⟩
  runId := ⟨2⟩
  fencingToken := 1
  leaseExpiresAt := 60

/-- `n` operations of call `i`, at one time. -/
def sampleActs (i n : ℕ) (now : Int) : List (Event Weather Request) :=
  List.replicate n (.act i { clock := fun _ => now })

def sampleJob (i : ℕ) (op : MemoryJobStore.Op) (now : Int) : List (Event Weather Request) :=
  .start (.job (.job op none)) :: sampleActs i 1 now

/-- A job is created and claimed, and its result approved and committed. -/
def sampleEvents : List (Event Weather Request) :=
  sampleJob 0 MemoryJobStore.sampleCreate 0 ++ sampleJob 1 MemoryJobStore.sampleClaim 0 ++
    .start (sampleApprove ⟨20⟩) :: sampleActs 2 3 10 ++
    .start (sampleCommit ⟨20⟩ 1) :: sampleActs 3 4 10

def sampleTakeover : List (Event Weather Request) :=
  sampleJob 4 (.expireLease sampleLease 60 ⟨11⟩) 60 ++
    sampleJob 5 (.claim ⟨1⟩ ⟨2⟩ ⟨3⟩ 60 60 ⟨21⟩) 60 ++
    .start (sampleApprove ⟨21⟩) :: sampleActs 6 3 70 ++
    .start (sampleCommit ⟨21⟩ 2) :: sampleActs 7 4 70

def sampleDownloads : List (Event Weather Request) :=
  sampleEvents ++ .start (sampleCreate ⟨20⟩) :: sampleActs 4 1 20 ++
    .start sampleDownload :: sampleActs 5 12 20

def sampleManifest (attempt : UUID) (token : ℕ) : CommittedManifest :=
  committedManifest samplePlatform (sampleCandidate attempt) token

def published (p : Process Op Reply Refusal Result Weather Request) : Option CommittedManifest :=
  match p.request, p.rest with
  | .commit .., .done (.ok (.manifest manifest)) => some manifest
  | _, _ => none

def downloaded (p : Process Op Reply Refusal Result Weather Request) :
    Option (OpaqueID × UUID × PublishedArtifact × Bytes) :=
  match p.request, p.rest with
  | .verifiedBytes _ _ caseId runId _, .done (.ok (.bytes artifact data)) =>
    some (caseId, runId, artifact, data)
  | _, _ => none

theorem published_done {calls : Calls} {i : ℕ} {manifest : CommittedManifest}
    (h : calls.processes[i]?.bind published = some manifest) :
    ∃ p, calls.processes[i]? = some p ∧ p.rest = .done (.ok (.manifest manifest)) := by
  obtain ⟨p, hp, hmanifest⟩ := Option.bind_eq_some_iff.mp h
  refine ⟨p, hp, ?_⟩
  unfold published at hmanifest
  split at hmanifest
  · next hrest =>
    obtain rfl := Option.some.inj hmanifest
    exact hrest
  · cases hmanifest

theorem downloaded_done {calls : Calls} {i : ℕ} {caseId : OpaqueID} {runId : UUID}
    {artifact : PublishedArtifact} {data : Bytes}
    (h : calls.processes[i]?.bind downloaded = some (caseId, runId, artifact, data)) :
    ∃ p ∈ calls.processes, ∃ configuration principal artifactId,
      p.request = .verifiedBytes configuration principal caseId runId artifactId ∧
        p.rest = .done (.ok (.bytes artifact data)) := by
  obtain ⟨p, hp, hdownload⟩ := Option.bind_eq_some_iff.mp h
  refine ⟨p, List.mem_of_getElem? hp, ?_⟩
  unfold downloaded at hdownload
  split at hdownload
  · next hrequest hrest =>
    cases hdownload
    exact ⟨_, _, _, hrequest, hrest⟩
  · cases hdownload

theorem sampleCommit_done :
    (reach samplePlatform sampleEvents).processes[3]?.bind published =
      some (sampleManifest ⟨20⟩ 1) := by
  decide +kernel

theorem sampleTakeover_done :
    (reach samplePlatform (sampleEvents ++ sampleTakeover)).processes[7]?.bind published =
      some (sampleManifest ⟨21⟩ 2) := by
  decide +kernel

theorem sampleDownload_done : (reach samplePlatform sampleDownloads).processes[5]?.bind downloaded =
    some (sampleCase, ⟨2⟩, sampleArtifact ⟨20⟩, sampleBytes) := by
  decide +kernel

/-- Of the calls for this case that succeed with `later`, all had done so before. -/
def Shut (platform : Platform) (events later : List (Event Weather Request))
    (caseId : OpaqueID) : Prop :=
  ∀ (i : ℕ) p, (reach platform (events ++ later)).processes[i]? = some p →
    p.request.caseId = some caseId → ∀ result, p.rest = .done (.ok result) → result ≠ .nothing →
    (reach platform events).processes[i]? = some p

/-- Once a revocation of the case has returned, no call for the case succeeds any more, also none
that was already under way. -/
theorem revocation_final (events later : List (Event Weather Request)) (caseId : OpaqueID)
    (revoked : ∃ q ∈ (reach platform events).processes, q.request = .revoke caseId ∧
      q.rest = .done (.ok .revoked)) : Shut platform events later caseId := by
  obtain ⟨q, hq, hrequest, hdone⟩ := revoked
  obtain ⟨j, hj⟩ := List.getElem?_of_mem hq
  obtain ⟨first, rest, _, rfl, -, hpost, -⟩ :=
    Pool.ended .refl .trans program_ends events hj hdone
  rw [hrequest] at hpost
  have stays : ∀ more, (reach platform (first ++ more)).store.epochs caseId ≠ 0 := by
    intro more hzero
    have grew := (reach_evolved platform first more).grows.epochs caseId
    exact hpost (Nat.le_zero.mp (grew.trans hzero.le))
  intro i p hp hcase result done hresult
  obtain hsame | ⟨before, after, _, rfl, -, hend, -⟩ :=
    Pool.ended_later .refl .trans program_ends _ later hp done
  · exact hsame
  · have still := stays (rest ++ before)
    rw [← List.append_assoc] at still
    exact absurd (post_open hend hcase hresult) ((reach_consistent platform _).closed still)

theorem revocation_final_sample :
    Shut samplePlatform (sampleEvents ++ .start (.revoke sampleCase) :: sampleActs 4 1 20)
      (.start (sampleCommit ⟨20⟩ 1) :: sampleActs 5 1 30) sampleCase :=
  revocation_final _ _ _ ⟨{
    request := .revoke sampleCase, rest := .done (.ok .revoked)
    trace := [(.revoke sampleCase, { clock := fun _ => 20 })] },
    List.mem_of_getElem? (i := 4) rfl, rfl, rfl⟩

theorem Recorded.fenced {first second : CommittedManifest} (recorded : Recorded db first)
    (standing : Standing db second)
    (samecase : first.candidate.caseId = second.candidate.caseId)
    (samerun : first.candidate.run.runId = second.candidate.run.runId) :
    second = first ∨ first.fencingToken < second.fencingToken := by
  obtain ⟨row, hrow, hrecorded⟩ := recorded
  obtain ⟨row', hrow', hpayload, htoken⟩ := standing
  have hkey : db.published first.candidate = db.published second.candidate := by
    unfold Database.published
    rw [samecase, samerun]
  obtain rfl := Option.some.inj (hrow.symm.trans (hkey.trans hrow'))
  obtain ⟨hfirst, -⟩ | hlt := hrecorded
  · exact .inl (hpayload.symm.trans hfirst)
  · exact .inr (htoken ▸ hlt)

/-- Calls that return a manifest of one run return them in the order of their tokens, and one
manifest for each token. -/
def InTokenOrder (platform : Platform) (events later : List (Event Weather Request)) : Prop :=
  ∀ p ∈ (reach platform events).processes, ∀ (j : ℕ) q,
    (reach platform (events ++ later)).processes[j]? = some q →
    (reach platform events).processes[j]? ≠ some q → ∀ first second : CommittedManifest,
    p.rest = .done (.ok (.manifest first)) → q.rest = .done (.ok (.manifest second)) →
    first.candidate.caseId = second.candidate.caseId →
    first.candidate.run.runId = second.candidate.run.runId →
    second = first ∨ first.fencingToken < second.fencingToken

theorem publications_in_token_order (platform : Platform)
    (events later : List (Event Weather Request)) : InTokenOrder platform events later := by
  intro p hp j q hq hnew first second hfirst hsecond samecase samerun
  obtain ⟨i, hi⟩ := List.getElem?_of_mem hp
  obtain ⟨early, rest, _, rfl, -, hpost, -⟩ :=
    Pool.ended .refl .trans program_ends events hi hfirst
  obtain hsame | ⟨before, after, _, rfl, -, hend, -⟩ :=
    Pool.ended_later .refl .trans program_ends _ later hq hsecond
  · exact absurd hsame hnew
  · have recorded := ((post_standing hpost).recorded.later (reach_evolved platform early rest)).later
      (reach_evolved platform (early ++ rest) before)
    exact recorded.fenced (post_standing hend) samecase samerun

/-- The next attempt's manifest is another one, and its token is larger. -/
theorem publications_in_token_order_sample :
    sampleManifest ⟨21⟩ 2 = sampleManifest ⟨20⟩ 1 ∨
      (sampleManifest ⟨20⟩ 1).fencingToken < (sampleManifest ⟨21⟩ 2).fencingToken := by
  obtain ⟨p, hp, hfirst⟩ := published_done sampleCommit_done
  obtain ⟨q, hq, hsecond⟩ := published_done sampleTakeover_done
  refine publications_in_token_order samplePlatform sampleEvents sampleTakeover p
    (List.mem_of_getElem? hp) 7 q hq ?_ _ _ hfirst hsecond rfl rfl
  have hlength : (reach samplePlatform sampleEvents).processes[7]? = none := by decide +kernel
  rw [hlength]
  exact Option.some_ne_none q ∘ Eq.symm

/-- Of the proposals under the attempt's token that succeed with `later`, all had before. -/
def Silenced (platform : Platform) (events later : List (Event Weather Request))
    (claimed : ClaimedAttempt) : Prop :=
  ∀ (i : ℕ) p, (reach platform (events ++ later)).processes[i]? = some p →
    ∀ candidate attempt, p.request.proposal = some (candidate, claimed.fencingToken, attempt) →
    attempt.jobId = claimed.jobId → candidate.run.runId = claimed.runId → ∀ result,
    p.rest = .done (.ok result) → (reach platform events).processes[i]? = some p

/-- An attempt whose run was claimed again, or whose lease was released, publishes nothing more. -/
theorem lost_attempt_silenced (events later : List (Event Weather Request))
    (claimed : ClaimedAttempt) (lost : Lost (reach platform events).store.review claimed) :
    Silenced platform events later claimed := by
  intro i p hp candidate attempt proposes hjob hrun result done
  obtain hsame | ⟨before, after, _, rfl, -, hend, -⟩ :=
    Pool.ended_later .refl .trans program_ends _ later hp done
  · exact hsame
  · obtain ⟨_, principal, manifest, -, -, committed⟩ := post_committed hend proposes
    have still := (reach_evolved platform events before).lost (reach_consistent platform events)
      claimed lost
    exact absurd still (committed.held (reach_consistent platform _).linked claimed hjob.symm
      hrun.symm rfl)

def sampleLapse : List (Event Weather Request) :=
  sampleJob 0 MemoryJobStore.sampleCreate 0 ++ sampleJob 1 MemoryJobStore.sampleClaim 0 ++
    .start (sampleCommit ⟨20⟩ 1) :: sampleJob 3 (.expireLease sampleLease 60 ⟨11⟩) 60

theorem sampleLapse_lost :
    Lost (reach samplePlatform sampleLapse).store.review MemoryJobStore.sampleAttempt :=
  ⟨_, rfl, .inr ⟨rfl, rfl⟩⟩

theorem lost_attempt_silenced_sample :
    Silenced samplePlatform sampleLapse (sampleActs 2 2 60) MemoryJobStore.sampleAttempt :=
  lost_attempt_silenced _ _ _ sampleLapse_lost

/-- At which of its looks at the clock the last transaction of a call checks the lease, the
access and the grant. -/
def Request.looks : Request → ℕ × ℕ × ℕ
  | .read .. => (2, 0, 1)
  | _ => (0, 1, 2)

def Request.permission : Request → Permission
  | .read .. => .review
  | _ => .publish

/-- The tables that stored the manifest and allowed to return it, by what the clock showed. -/
structure Authority (platform : Platform) (request : Request) (clock : ℕ → Int)
    (result : CommittedManifest) (db : Database) : Prop where
  standing : Standing db result
  backed : ∃ row, db.published result.candidate = some row ∧ row.payload = result ∧
    Backed platform db (result.candidate.caseId, result.candidate.run.runId) row
  exposed : ∃ pinned principal, (∀ caller ∈ request.caller, principal = caller) ∧
    PinnedAt platform db result.candidate pinned ∧ Exposed (clock request.looks.1) pinned result ∧
    Permitted platform (clock request.looks.2.1) (clock request.looks.2.2) db result.candidate
      request.permission principal pinned
  proposed : ∀ candidate token attempt, request.proposal = some (candidate, token, attempt) →
    result = committedManifest platform candidate token ∧
      ∃ pinned, PinnedAt platform db candidate pinned ∧
        Live (clock request.looks.1) pinned candidate attempt token

theorem Committed.made {clock : ℕ → Int} {candidate : ManifestCandidate} {token : ℕ}
    {principal : Principal} {attempt : PublicationAttempt} {result : CommittedManifest}
    (h : Committed platform clock db candidate token principal attempt result)
    (consistent : Consistent platform db) : result = committedManifest platform candidate token := by
  obtain ⟨row, hrow, hpayload, -⟩ := h.standing
  have bound := (consistent.backed _ row hrow).bound.1
  rw [hpayload] at bound
  exact bound_committed bound h.proposed h.fenced

theorem Standing.backed {result : CommittedManifest} (h : Standing db result)
    (consistent : Consistent platform db) :
    ∃ row, db.published result.candidate = some row ∧ row.payload = result ∧
      Backed platform db (result.candidate.caseId, result.candidate.run.runId) row := by
  obtain ⟨row, hrow, hpayload, -⟩ := h
  exact ⟨row, hrow, hpayload, consistent.backed _ row hrow⟩

theorem proposal_looks {request : Request} {proposal : ManifestCandidate × ℕ × PublicationAttempt}
    (h : request.proposal = some proposal) :
    request.looks = (0, 1, 2) ∧ request.permission = .publish := by
  cases request with
  | read => cases h
  | job | create | approveExact | revoke | authorize | commit | publish | verifiedBytes =>
    exact ⟨rfl, rfl⟩

theorem Committed.authority {request : Request} {clock : ℕ → Int} {candidate : ManifestCandidate}
    {token : ℕ} {principal : Principal} {attempt : PublicationAttempt} {result : CommittedManifest}
    (h : Committed platform clock db candidate token principal attempt result)
    (proposes : request.proposal = some (candidate, token, attempt))
    (calls : request.caller = some principal) (consistent : Consistent platform db) :
    Authority platform request clock result db := by
  obtain ⟨pinned, taken, live, permitted⟩ := h.authorized
  obtain ⟨hlooks, hpermission⟩ := proposal_looks proposes
  obtain rfl := h.made consistent
  refine ⟨h.standing, h.standing.backed consistent, ⟨pinned, principal, ?_, taken, ?_, ?_⟩, ?_⟩
  · intro caller hcaller
    exact Option.some.inj (calls.symm.trans hcaller)
  · rw [hlooks]
    exact .inl ⟨attempt, live⟩
  · rw [hlooks, hpermission]
    exact permitted
  · intro candidate' token' attempt' proposes'
    cases proposes.symm.trans proposes'
    rw [hlooks]
    exact ⟨rfl, pinned, taken, live⟩

theorem ReadAt.authority {clock : ℕ → Int} {caseId : OpaqueID} {runId : UUID}
    {result : CommittedManifest} (h : ReadAt platform clock db caseId runId result)
    (consistent : Consistent platform db) :
    Authority platform (.read caseId runId) clock result db := by
  obtain ⟨pinned, principal, taken, exposed, permitted⟩ := h.authorized
  refine ⟨h.standing, h.standing.backed consistent,
    ⟨pinned, principal, ?_, taken, exposed, permitted⟩, ?_⟩
  · intro caller hcaller
    cases hcaller
  · intro candidate token attempt proposes
    cases proposes

/-- Every manifest a call returned was stored and allowed by the tables that its own last
operation left, at what the clock showed to it. -/
def Authorized (platform : Platform) (events : List (Event Weather Request)) : Prop :=
  ∀ (i : ℕ) p, (reach platform events).processes[i]? = some p →
    ∀ result, p.rest = .done (.ok (.manifest result)) →
    ∃ before weather after, events = before ++ .act i weather :: after ∧
      Authority platform p.request weather.clock result
        (reach platform (before ++ [.act i weather])).store

theorem publications_authorized (platform : Platform) (events : List (Event Weather Request)) :
    Authorized platform events := by
  intro i p hp result done
  obtain ⟨early, rest, seen, rfl, moments, hpost, -⟩ :=
    Pool.ended .refl .trans program_ends events hp done
  obtain ⟨weather, last, hends⟩ := post_manifest hpost
  obtain ⟨before, after, hearly, hstore⟩ := moments _ (List.mem_of_getLast? last)
  refine ⟨before, weather, after ++ rest, by rw [hearly]; simp, ?_⟩
  have consistent := reach_consistent platform early
  have hlast : (reach platform (before ++ [.act i weather])).store =
    (reach platform early).store := hstore
  rw [hlast]
  obtain ⟨candidate, token, principal, attempt, proposes, calls, committed⟩ |
    ⟨caseId, runId, hrequest, readAt⟩ := hends
  · exact committed.authority proposes calls consistent
  · rw [hrequest]
    exact readAt.authority consistent

/-- The committed manifest was allowed at an operation of the commit's own. -/
theorem publications_authorized_sample : ∃ p before weather after,
    (reach samplePlatform sampleEvents).processes[3]? = some p ∧
      sampleEvents = before ++ .act 3 weather :: after ∧
      Authority samplePlatform p.request weather.clock (sampleManifest ⟨20⟩ 1)
        (reach samplePlatform (before ++ [.act 3 weather])).store := by
  obtain ⟨p, hp, done⟩ := published_done sampleCommit_done
  obtain ⟨before, weather, after, hevents, allowed⟩ :=
    publications_authorized samplePlatform sampleEvents 3 p hp _ done
  exact ⟨p, before, weather, after, hp, hevents, allowed⟩

/-- Downloads return what was staged: the bytes now stored under the artifact's key, verified, of
a manifest that was the stored one of the run at some moment. -/
structure Exact (platform : Platform) (events : List (Event Weather Request)) (caseId : OpaqueID)
    (runId : UUID) (artifact : PublishedArtifact) (data : Bytes) : Prop where
  staged : Staged platform artifact data (reach platform events).store
  listed : ∃ manifest : CommittedManifest, artifact ∈ manifest.candidate.artifacts ∧
    manifest.candidate.caseId = caseId ∧ manifest.candidate.run.runId = runId ∧
    ∃ before after, events = before ++ after ∧ Standing (reach platform before).store manifest
  /-- Whoever staged an object under this key, staged these bytes. -/
  created : ∀ p ∈ (reach platform events).processes, ∀ configuration key bytes version,
    p.request = .create configuration key bytes → p.rest = .done (.ok (.created version)) →
    key.key = artifact.key.key → bytes = data

def DownloadsExact (platform : Platform) (events : List (Event Weather Request)) : Prop :=
  ∀ p ∈ (reach platform events).processes,
    ∀ configuration principal caseId runId artifactId artifact data,
    p.request = .verifiedBytes configuration principal caseId runId artifactId →
    p.rest = .done (.ok (.bytes artifact data)) →
    artifact.artifactId = artifactId ∧ Exact platform events caseId runId artifact data

theorem created_stored {events : List (Event Weather Request)} {p : Process ..}
    (hp : p ∈ (reach platform events).processes) {configuration : Configuration} {key : ArtifactKey}
    {bytes : Bytes} {version : Digest} (hrequest : p.request = .create configuration key bytes)
    (done : p.rest = .done (.ok (.created version))) :
    (reach platform events).store.objects key.key = some (objectRow platform key bytes) := by
  obtain ⟨i, hi⟩ := List.getElem?_of_mem hp
  obtain ⟨before, after, _, rfl, -, hpost, -⟩ :=
    Pool.ended .refl .trans program_ends events hi done
  rw [hrequest] at hpost
  exact (reach_evolved platform before after).grows.objects _ _ hpost

theorem downloads_exact (platform : Platform) (events : List (Event Weather Request)) :
    DownloadsExact platform events := by
  intro p hp configuration principal caseId runId artifactId artifact data hrequest done
  obtain ⟨i, hi⟩ := List.getElem?_of_mem hp
  obtain ⟨early, rest, seen, hevents, moments, hpost, -⟩ :=
    Pool.ended .refl .trans program_ends events hi done
  rw [hrequest] at hpost
  have evolved := reach_evolved platform early rest
  rw [← hevents] at evolved
  obtain ⟨manifest, hartifact, hcase, hrun, ⟨look, hlook, standing⟩⟩ := hpost.listed
  obtain ⟨before, after, rfl, hstore⟩ := moments look hlook
  have staged := hpost.staged.later evolved
  refine ⟨hpost.named, staged, ⟨manifest, hartifact, hcase, hrun, before ++ [.act i look.1],
    after ++ rest, by simp [hevents], ?_⟩, ?_⟩
  · rw [← hstore] at standing
    exact standing
  · intro q hq configuration' key bytes version hcreate hcreated hkey
    have hrow := created_stored hq hcreate hcreated
    obtain ⟨⟨row, hstored, rfl⟩, -⟩ := staged
    rw [hkey, hstored] at hrow
    exact (congrArg ObjectRow.body (Option.some.inj hrow)).symm

theorem downloads_exact_sample : Exact samplePlatform sampleDownloads sampleCase ⟨2⟩
    (sampleArtifact ⟨20⟩) sampleBytes := by
  obtain ⟨p, hp, configuration, principal, artifactId, hrequest, done⟩ :=
    downloaded_done sampleDownload_done
  exact (downloads_exact samplePlatform sampleDownloads p hp _ _ _ _ _ _ _ hrequest done).2

end AppraisalReview.Publication
