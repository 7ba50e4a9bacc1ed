import AppraisalReview.Meeting
import AppraisalReview.Publication
import AppraisalReview.Raising

set_option autoImplicit false

/-!
# What one publication transaction leaves behind

`Grows` is what no transaction undoes, `Consistent` what all of them keep of
the tables together.
-/
namespace AppraisalReview.Publication
open Interleaving ArtifactPublication Raising
open MemoryJobStore (Store Job Run Attempt Linked Lost)

variable {platform : Platform} {db db' : Database}

theorem refuseIf_ok {condition : Prop} [Decidable condition] {code : PublicationCode} {u : Unit} :
    refuseIf condition code = .ok u ↔ ¬ condition := by
  unfold refuseIf refuse
  split_ifs with h
  · exact ⟨(by cases ·), fun hn => absurd h hn⟩
  · exact ⟨fun _ => h, fun _ => rfl⟩

theorem orRefuse_ok {α : Type} {code : PublicationCode} {x : Option α} {a : α} :
    orRefuse code x = .ok a ↔ x = some a := by
  cases x with
  | none => exact ⟨(by cases ·), (by cases ·)⟩
  | some b =>
    exact ⟨fun h => congrArg some (Except.ok.inj h),
      fun h => congrArg Except.ok (Option.some.inj h)⟩

/-- The pin as it is taken from these tables, and the rows it was taken from. -/
structure PinnedAt (platform : Platform) (db : Database) (candidate : ManifestCandidate)
    (pinned : Pinned) : Prop where
  taken : pin platform db candidate = .ok pinned
  row : ∃ jobId r, ((jobId, r), pinned.run) ∈ db.review.runs.items ∧
    db.review.jobs.get? jobId = some pinned.job ∧ Names candidate jobId pinned.job pinned.run
  runId : pinned.run.runId = candidate.run.runId
  evidenced : Evidenced candidate pinned.run
  epoch : pinned.epoch = db.epochs candidate.caseId

theorem pin_ok {candidate : ManifestCandidate} {pinned : Pinned}
    (h : pin platform db candidate = .ok pinned) : PinnedAt platform db candidate pinned := by
  have taken := h
  unfold pin at h
  split at h
  · next jobId r run hrows =>
    obtain ⟨job, hjob, h⟩ := bind_ok.mp h
    obtain ⟨_, hnames, h⟩ := bind_ok.mp h
    obtain ⟨_, hevidenced, h⟩ := bind_ok.mp h
    obtain ⟨_, -, h⟩ := bind_ok.mp h
    obtain rfl := pure_ok.mp h
    have hmem : ((jobId, r), run) ∈ db.review.runs.items.filter fun row =>
        row.2.runId = candidate.run.runId := by
      rw [hrows]
      exact List.mem_singleton_self _
    obtain ⟨hitem, hrun⟩ := List.mem_filter.mp hmem
    exact ⟨taken, ⟨jobId, r, hitem, orRefuse_ok.mp hjob, not_not.mp (refuseIf_ok.mp hnames)⟩,
      of_decide_eq_true hrun, not_not.mp (refuseIf_ok.mp hevidenced), rfl⟩
  · cases h

theorem PinnedAt.stored {candidate : ManifestCandidate} {pinned : Pinned}
    (h : PinnedAt platform db candidate pinned) (linked : Linked db.review) :
    db.review.runs.get? (pinned.job.jobId, candidate.run.runId) = some pinned.run := by
  obtain ⟨jobId, r, hitem, hjob, hnames⟩ := h.row
  have hrun : db.review.runs.get? (jobId, r) = some pinned.run :=
    (Dict.mem_items _ _ _).mp hitem
  obtain rfl : jobId = pinned.job.jobId := hnames.1.symm
  obtain rfl : r = candidate.run.runId := ((linked _).runId _ _ hrun).symm.trans h.runId
  exact hrun

theorem live_ok {clock : Int} {pinned : Pinned} {candidate : ManifestCandidate}
    {attempt : PublicationAttempt} {token : ℕ} {u : Unit}
    (h : live clock pinned candidate attempt token = .ok u) :
    Live clock pinned candidate attempt token := not_not.mp (refuseIf_ok.mp h)

def Open (db : Database) (caseId : OpaqueID) : Prop :=
  ∃ actor row, db.access (caseId, actor) = some row ∧ row.active = true

theorem access_ok {clock : Int} {principal : Principal} {caseId : OpaqueID}
    {permission : Permission} {expires : Int}
    (h : access clock db principal caseId permission = .ok expires) :
    principal.actor.kind ≠ .model ∧ ∃ row, db.access (caseId, principal.actor.actorId) = some row ∧
      row.active = true ∧ clock < row.expiresAt ∧ permission ∈ row.permissions := by
  obtain ⟨_, -, h⟩ := bind_ok.mp h
  obtain ⟨_, hkind, h⟩ := bind_ok.mp h
  obtain ⟨row, hrow, h⟩ := bind_ok.mp h
  obtain ⟨_, hchecks, -⟩ := bind_ok.mp h
  have hpassed := refuseIf_ok.mp hchecks
  push Not at hpassed
  exact ⟨refuseIf_ok.mp hkind, row, orRefuse_ok.mp hrow, hpassed⟩

theorem access_open {clock : Int} {principal : Principal} {caseId : OpaqueID}
    {permission : Permission} {expires : Int}
    (h : access clock db principal caseId permission = .ok expires) : Open db caseId := by
  obtain ⟨-, row, hrow, hactive, -⟩ := access_ok h
  exact ⟨_, row, hrow, hactive⟩

/-- An active grant for exactly this candidate, at this pin and epoch, unexpired. -/
def Granted (platform : Platform) (clock : Int) (db : Database) (candidate : ManifestCandidate)
    (principal : Principal) (pinned : Pinned) : Prop :=
  ∃ row, db.grants (candidate.caseId, candidate.run.runId, principal.actor.actorId) = some row ∧
    row.active = true ∧ clock < row.expiresAt ∧ row.digest = platform.digest candidate ∧
    row.pin = pinned.digest ∧ row.epoch = pinned.epoch

theorem owner_ok {principal : Principal} {pinned : Pinned} {u : Unit}
    (h : owner principal pinned = .ok u) :
    principal.actor.kind ≠ .model ∧ principal.actor.actorId = pinned.job.principalId := by
  have hpassed := refuseIf_ok.mp h
  push Not at hpassed
  exact hpassed

/-- The principal whose job is pinned, with access to the case and the exact grant, by what the
clock showed at the one check and at the other. -/
structure Permitted (platform : Platform) (accessed granted : Int) (db : Database)
    (candidate : ManifestCandidate) (permission : Permission) (principal : Principal)
    (pinned : Pinned) : Prop where
  human : principal.actor.kind ≠ .model
  owner : principal.actor.actorId = pinned.job.principalId
  access : ∃ row, db.access (candidate.caseId, principal.actor.actorId) = some row ∧
    row.active = true ∧ accessed < row.expiresAt ∧ permission ∈ row.permissions
  granted : Granted platform granted db candidate principal pinned

theorem grant_ok {clock : Int} {candidate : ManifestCandidate} {principal : Principal}
    {pinned : Pinned} {expires : Int}
    (h : grant platform clock db candidate principal pinned = .ok expires) :
    Granted platform clock db candidate principal pinned := by
  obtain ⟨row, hrow, h⟩ := bind_ok.mp h
  obtain ⟨_, hchecks, -⟩ := bind_ok.mp h
  have hpassed := refuseIf_ok.mp hchecks
  push Not at hpassed
  obtain ⟨hexact, hclock, hactive⟩ := hpassed
  simp only [Prod.mk.injEq] at hexact
  exact ⟨row, orRefuse_ok.mp hrow, hactive, hclock, hexact⟩

theorem manifest_ok {stored : Option ManifestRow} {found : Option CommittedManifest}
    (h : manifest platform stored = .ok found) :
    found = stored.map ManifestRow.payload ∧ ∀ row ∈ stored, row.Bound platform := by
  cases stored with
  | none =>
    cases h
    exact ⟨rfl, fun row hrow => by cases hrow⟩
  | some row =>
    obtain ⟨_, hbound, h⟩ := bind_ok.mp h
    obtain rfl := pure_ok.mp h
    refine ⟨rfl, fun row' hrow => ?_⟩
    cases hrow
    exact not_not.mp (refuseIf_ok.mp hbound)

theorem unsuperseded_ok {existing : Option CommittedManifest} {candidate : ManifestCandidate}
    {token : ℕ} {u : Unit} (h : unsuperseded existing candidate token = .ok u) :
    ∀ found ∈ existing, found.fencingToken ≤ token ∧
      (found.fencingToken = token → found.candidate = candidate) := by
  obtain ⟨_, hstale, hconflict⟩ := bind_ok.mp h
  have hstale := refuseIf_ok.mp hstale
  have hconflict := refuseIf_ok.mp hconflict
  push Not at hstale hconflict
  exact fun found hfound => ⟨hstale found hfound, hconflict found hfound⟩

theorem checkCandidate_ok {candidate : ManifestCandidate} {u : Unit}
    (h : checkCandidate candidate = .ok u) : candidate.reviewStatus = .completed := by
  obtain ⟨_, hstatus, -⟩ := bind_ok.mp h
  exact not_not.mp (refuseIf_ok.mp hstatus)

theorem bound_committed {found : CommittedManifest}
    {candidate : ManifestCandidate} {token : ℕ} (h : found.boundDigest platform.digest)
    (hcandidate : found.candidate = candidate) (htoken : found.fencingToken = token) :
    found = committedManifest platform candidate token := by
  obtain ⟨_, _, _⟩ := found
  subst hcandidate htoken
  rw [committedManifest, ← show _ = platform.digest _ from h]

def Standing (db : Database) (result : CommittedManifest) : Prop :=
  ∃ row, db.published result.candidate = some row ∧ row.payload = result ∧
    row.fencingToken = result.fencingToken

structure Commits (platform : Platform) (clock : ℕ → Int) (db : Database)
    (candidate : ManifestCandidate) (token : ℕ) (principal : Principal)
    (attempt : PublicationAttempt) (pinned : Pinned) (result : CommittedManifest)
    (db' : Database) : Prop where
  taken : PinnedAt platform db candidate pinned
  live : Live (clock 0) pinned candidate attempt token
  opened : Open db candidate.caseId
  permitted : Permitted platform (clock 1) (clock 2) db candidate .publish principal pinned
  made : result = committedManifest platform candidate token
  /-- Nothing newer was stored, and nothing else under this token. -/
  unsuperseded : ∀ row, db.published candidate = some row → row.Bound platform ∧
    row.fencingToken ≤ token ∧ (row.fencingToken = token → row.payload = result)
  written : (db' = db.committed principal result ∧
      ∀ row, db.published candidate = some row → row.fencingToken < token) ∨
    (db' = db ∧ Standing db result)

theorem committing_ok {clock : ℕ → Int} {candidate : ManifestCandidate} {token : ℕ}
    {principal : Principal} {attempt : PublicationAttempt} {before : Pinned}
    {result : CommittedManifest}
    (h : committing platform clock db candidate token principal attempt before =
      .ok (result, db')) :
    ∃ pinned, Commits platform clock db candidate token principal attempt pinned result db' := by
  obtain ⟨current, hpin, h⟩ := bind_ok.mp h
  obtain ⟨_, -, h⟩ := bind_ok.mp h
  obtain ⟨_, howner, h⟩ := bind_ok.mp h
  obtain ⟨_, hlive, h⟩ := bind_ok.mp h
  obtain ⟨expires, haccess, h⟩ := bind_ok.mp h
  obtain ⟨existing, hexisting, h⟩ := bind_ok.mp h
  obtain ⟨_, hunsuperseded, h⟩ := bind_ok.mp h
  obtain ⟨granted, hgrant, h⟩ := bind_ok.mp h
  obtain ⟨rfl, hbound⟩ := manifest_ok hexisting
  have hnewest := unsuperseded_ok hunsuperseded
  have stored : ∀ row, db.published candidate = some row → row.Bound platform ∧
      row.fencingToken ≤ token ∧
      (row.fencingToken = token → row.payload = committedManifest platform candidate token) := by
    intro row hrow
    have hrowBound := hbound row hrow
    obtain ⟨htoken, -⟩ := Prod.mk.inj hrowBound.2
    obtain ⟨hle, hsame⟩ := hnewest row.payload (by simp [hrow])
    exact ⟨hrowBound, htoken ▸ hle, fun heq =>
      bound_committed hrowBound.1 (hsame (htoken.trans heq)) (htoken.trans heq)⟩
  have base : ∀ {result db'}, result = committedManifest platform candidate token →
      ((db' = db.committed principal result ∧
          ∀ row, db.published candidate = some row → row.fencingToken < token) ∨
        (db' = db ∧ Standing db result)) →
      Commits platform clock db candidate token principal attempt current result db' :=
    fun hresult hwritten => {
      taken := pin_ok hpin, live := live_ok hlive, opened := access_open haccess
      permitted := ⟨(owner_ok howner).1, (owner_ok howner).2, (access_ok haccess).2,
        grant_ok hgrant⟩
      made := hresult
      unsuperseded := fun row hrow => by rw [hresult]; exact stored row hrow
      written := hwritten }
  refine ⟨current, ?_⟩
  cases hrow : db.published candidate with
  | none =>
    rw [hrow] at h
    obtain ⟨rfl, rfl⟩ := Prod.mk.inj (pure_ok.mp h)
    refine base rfl (.inl ⟨rfl, fun row hrow' => ?_⟩)
    cases hrow.symm.trans hrow'
  | some row =>
    rw [hrow] at h
    obtain ⟨hrowBound, hle, hsame⟩ := stored row hrow
    obtain ⟨htoken, -⟩ := Prod.mk.inj hrowBound.2
    simp only [Option.map_some] at h
    split at h
    · next heq =>
      obtain ⟨rfl, rfl⟩ := Prod.mk.inj (pure_ok.mp h)
      have hresult := hsame (htoken.symm.trans heq)
      refine base hresult (.inr ⟨rfl, row, ?_, rfl, htoken.symm⟩)
      rw [hresult]
      exact hrow
    · next hne =>
      obtain ⟨rfl, rfl⟩ := Prod.mk.inj (pure_ok.mp h)
      refine base rfl (.inl ⟨rfl, fun row' hrow' => ?_⟩)
      obtain rfl := Option.some.inj (hrow.symm.trans hrow')
      exact lt_of_le_of_ne hle fun heq => hne (htoken.trans heq)

structure Approves (platform : Platform) (clock : ℕ → Int) (ttl : ℕ) (db : Database)
    (candidate : ManifestCandidate) (principal : Principal) (before pinned : Pinned)
    (db' : Database) : Prop where
  taken : PinnedAt platform db candidate pinned
  same : samePin before pinned
  live : ∃ attempt : PublicationAttempt,
    Live (clock 0) pinned candidate attempt pinned.run.fencingToken
  written : db' = db.approved platform candidate principal pinned (clock 1 + ttl)

theorem approving_ok {clock : ℕ → Int} {ttl : ℕ} {candidate : ManifestCandidate}
    {principal : Principal} {before : Pinned} {digest : Digest}
    (h : approving platform clock ttl db candidate principal before = .ok (digest, db')) :
    ∃ pinned, Approves platform clock ttl db candidate principal before pinned db' := by
  obtain ⟨current, hpin, h⟩ := bind_ok.mp h
  obtain ⟨_, hsame, h⟩ := bind_ok.mp h
  obtain ⟨_, -, h⟩ := bind_ok.mp h
  obtain ⟨leaseOwner, -, h⟩ := bind_ok.mp h
  obtain ⟨_, hlive, h⟩ := bind_ok.mp h
  obtain ⟨existing, -, h⟩ := bind_ok.mp h
  obtain ⟨_, -, h⟩ := bind_ok.mp h
  obtain ⟨-, rfl⟩ := Prod.mk.inj (pure_ok.mp h)
  exact ⟨current, pin_ok hpin, not_not.mp (refuseIf_ok.mp hsame), ⟨_, live_ok hlive⟩, rfl⟩

structure Grows (db db' : Database) : Prop where
  epochs : ∀ caseId, db.epochs caseId ≤ db'.epochs caseId
  /-- A manifest gives way to a later token only. -/
  manifests : ∀ key row, db.manifests.get? key = some row →
    ∃ row', db'.manifests.get? key = some row' ∧
      (row' = row ∨ row.fencingToken < row'.fencingToken)
  objects : ∀ key row, db.objects key = some row → db'.objects key = some row

theorem Grows.of_same (epochs : db'.epochs = db.epochs) (manifests : db'.manifests = db.manifests)
    (objects : db'.objects = db.objects) : Grows db db' where
  epochs caseId := by rw [epochs]
  manifests key row h := ⟨row, by rw [manifests, h], .inl rfl⟩
  objects key row h := by rw [objects, h]

theorem Grows.refl (db : Database) : Grows db db := .of_same rfl rfl rfl

theorem Grows.trans {db'' : Database} (h : Grows db db') (h' : Grows db' db'') :
    Grows db db'' where
  epochs caseId := (h.epochs caseId).trans (h'.epochs caseId)
  manifests key row hrow := by
    obtain ⟨row', hrow', hlater⟩ := h.manifests key row hrow
    obtain ⟨row'', hrow'', hlater'⟩ := h'.manifests key row' hrow'
    refine ⟨row'', hrow'', ?_⟩
    obtain rfl | hlt := hlater
    · exact hlater'
    · obtain rfl | hlt' := hlater'
      · exact .inr hlt
      · exact .inr (hlt.trans hlt')
  objects key row hrow := h'.objects key row (h.objects key row hrow)

/-- A stored manifest is the complete candidate of a run that exists: the same revision, exactly
its documents as sources, and no token from the future. -/
structure Backed (platform : Platform) (db : Database) (key : OpaqueID × UUID)
    (row : ManifestRow) : Prop where
  keyed : key = (row.payload.candidate.caseId, row.payload.candidate.run.runId)
  bound : row.Bound platform
  complete : row.payload.candidate.reviewStatus = .completed
  run : ∃ jobId run, db.review.runs.get? (jobId, key.2) = some run ∧
    run.revision = row.payload.candidate.run.revision ∧ row.fencingToken ≤ run.fencingToken ∧
    Evidenced row.payload.candidate run

structure Consistent (platform : Platform) (db : Database) : Prop where
  linked : Linked db.review
  /-- Nothing is allowed for a case whose publications were ever revoked. -/
  access : ∀ key row, db.access key = some row → row.active = true → db.epochs key.1 = 0
  grants : ∀ key row, db.grants key = some row → row.active = true → db.epochs key.1 = 0
  backed : ∀ key row, db.manifests.get? key = some row → Backed platform db key row

structure Evolves (platform : Platform) (db db' : Database) : Prop where
  grows : Grows db db'
  consistent : Consistent platform db → Consistent platform db'
  lost : Consistent platform db → ∀ attempt, Lost db.review attempt → Lost db'.review attempt

theorem Evolves.refl (db : Database) : Evolves platform db db :=
  ⟨.refl db, id, fun _ _ h => h⟩

theorem Evolves.trans {db'' : Database} (h : Evolves platform db db')
    (h' : Evolves platform db' db'') : Evolves platform db db'' :=
  ⟨h.grows.trans h'.grows, fun hc => h'.consistent (h.consistent hc),
    fun hc attempt hlost => h'.lost (h.consistent hc) attempt (h.lost hc attempt hlost)⟩

theorem Consistent.closed (consistent : Consistent platform db) {caseId : OpaqueID}
    (h : db.epochs caseId ≠ 0) : ¬ Open db caseId := by
  rintro ⟨actor, row, hrow, hactive⟩
  exact h (consistent.access _ row hrow hactive)

theorem Backed.moved {key : OpaqueID × UUID} {row : ManifestRow} (h : Backed platform db key row)
    (moves : ∀ key run, db.review.runs.get? key = some run →
      ∃ run', db'.review.runs.get? key = some run' ∧ run'.revision = run.revision ∧
        run.fencingToken ≤ run'.fencingToken ∧ run'.documents = run.documents) :
    Backed platform db' key row := by
  obtain ⟨jobId, run, hrun, hrevision, hle, hevidenced⟩ := h.run
  obtain ⟨run', hrun', hrevision', hle', hdocuments⟩ := moves _ _ hrun
  refine ⟨h.keyed, h.bound, h.complete, jobId, run', hrun', hrevision'.trans hrevision,
    hle.trans hle', ?_⟩
  unfold Evidenced at hevidenced ⊢
  rw [hdocuments]
  exact hevidenced

theorem review_evolves {review : Store} {candidates : List SQLiteReviewStore.Candidate}
    (moves : Linked db.review → SQLiteReviewStore.Moves db.review review) :
    Evolves platform db { db with review := review, candidates := candidates } := by
  refine ⟨.of_same rfl rfl rfl, fun consistent => ?_, fun consistent attempt hlost =>
    (moves consistent.linked).lost hlost⟩
  refine ⟨(moves consistent.linked).linked, consistent.access, consistent.grants, ?_⟩
  intro key row hrow
  refine (consistent.backed key row hrow).moved fun at' run hrun => ?_
  obtain ⟨run', hrun', hstep, hdocuments⟩ := (moves consistent.linked).runs at' run hrun
  exact ⟨run', hrun', hstep.revision, hstep.le, hdocuments⟩

theorem job_evolves (weather : Weather) (op : SQLiteReviewStore.Op) :
    Evolves platform db (serve platform weather (.job op) db).2 :=
  review_evolves fun linked => SQLiteReviewStore.step_moves platform.textDigest platform.policy
    (t := { store := db.review, candidates := db.candidates }) linked _ op

theorem approved_evolves {candidate : ManifestCandidate} {principal : Principal} {pinned : Pinned}
    {expires : Int} (unrevoked : db.epochs candidate.caseId = 0) :
    Evolves platform db (db.approved platform candidate principal pinned expires) where
  grows := .of_same rfl rfl rfl
  consistent consistent :=
    { linked := consistent.linked
      access := fun key row hrow hactive => by
        change db.epochs key.1 = 0
        by_cases hkey : key = (candidate.caseId, principal.actor.actorId)
        · rw [hkey]
          exact unrevoked
        · exact consistent.access key row ((Function.update_of_ne hkey ..).symm.trans hrow) hactive
      grants := fun key row hrow hactive => by
        change db.epochs key.1 = 0
        by_cases hkey : key = (candidate.caseId, candidate.run.runId, principal.actor.actorId)
        · rw [hkey]
          exact unrevoked
        · exact consistent.grants key row ((Function.update_of_ne hkey ..).symm.trans hrow) hactive
      backed := fun key row hrow => (consistent.backed key row hrow).moved fun at' run hrun =>
        ⟨run, hrun, rfl, le_refl _, rfl⟩ }
  lost _ _ hlost := hlost

theorem revoked_evolves (caseId : OpaqueID) : Evolves platform db (db.revoked caseId) where
  grows :=
    { epochs := fun other => by
        change _ ≤ Function.update db.epochs caseId (db.epochs caseId + 1) other
        rw [Function.update_apply]
        split_ifs with h
        · rw [h]
          exact Nat.le_succ _
        · exact le_refl _
      manifests := fun key row h => ⟨row, h, .inl rfl⟩
      objects := fun _ _ h => h }
  consistent consistent :=
    { linked := consistent.linked
      access := fun key row hrow hactive => by
        simp only [Database.revoked] at hrow ⊢
        split_ifs at hrow with hcase
        · obtain ⟨old, -, rfl⟩ := Option.map_eq_some_iff.mp hrow
          cases hactive
        · rw [Function.update_of_ne hcase]
          exact consistent.access key row hrow hactive
      grants := fun key row hrow hactive => by
        simp only [Database.revoked] at hrow ⊢
        split_ifs at hrow with hcase
        · obtain ⟨old, -, rfl⟩ := Option.map_eq_some_iff.mp hrow
          cases hactive
        · rw [Function.update_of_ne hcase]
          exact consistent.grants key row hrow hactive
      backed := fun key row hrow => (consistent.backed key row hrow).moved fun at' run hrun =>
        ⟨run, hrun, rfl, le_refl _, rfl⟩ }
  lost _ _ hlost := hlost

theorem Commits.evolves {clock : ℕ → Int} {candidate : ManifestCandidate} {token : ℕ}
    {principal : Principal} {attempt : PublicationAttempt} {pinned : Pinned}
    {result : CommittedManifest} (complete : candidate.reviewStatus = .completed)
    (h : Commits platform clock db candidate token principal attempt pinned result db') :
    Evolves platform db db' := by
  obtain ⟨rfl, hnewer⟩ | ⟨rfl, -⟩ := h.written
  swap
  · exact .refl _
  obtain rfl := h.made
  refine ⟨⟨fun _ => le_refl _, fun key row hrow => ?_, fun _ _ h => h⟩, fun consistent => ?_,
    fun _ _ hlost => hlost⟩
  · simp only [Database.committed, Dict.get?_set]
    split_ifs with hkey
    · subst hkey
      exact ⟨_, rfl, .inr (hnewer row hrow)⟩
    · exact ⟨row, hrow, .inl rfl⟩
  · refine ⟨consistent.linked, consistent.access, consistent.grants, fun key row hrow => ?_⟩
    simp only [Database.committed, Dict.get?_set] at hrow
    split_ifs at hrow with hkey
    · obtain rfl := Option.some.inj hrow
      obtain ⟨jobId, r, hitem, hjob, hnames⟩ := h.taken.row
      exact {
        keyed := hkey, bound := ⟨rfl, rfl⟩, complete := complete
        run := ⟨pinned.job.jobId, pinned.run, hkey ▸ h.taken.stored consistent.linked,
          hnames.2.2.2, h.live.fenced.ge, h.taken.evidenced⟩ }
    · exact (consistent.backed key row hrow).moved fun at' run hrun =>
        ⟨run, hrun, rfl, le_refl _, rfl⟩

/-- The row that `create` writes or finds. -/
def objectRow (platform : Platform) (key : ArtifactKey) (data : Bytes) : ObjectRow where
  version := objectVersion platform key data
  digest := platform.bodyDigest data
  size := data.length
  body := data

theorem creating_ok {key : ArtifactKey} {data : Bytes} {maxBytes : ℕ} {version : Digest}
    (h : creating platform db key data maxBytes = .ok (version, db')) :
    (db.objects key.key = none ∧ db' = { db with
      objects := Function.update db.objects key.key (some (objectRow platform key data)) }) ∨
    (db.objects key.key = some (objectRow platform key data) ∧ db' = db) := by
  unfold creating at h
  obtain ⟨_, -, h⟩ := bind_ok.mp h
  generalize key.key = name at h ⊢
  cases hobject : db.objects name with
  | none =>
    simp only [hobject] at h
    exact .inl ⟨rfl, (Prod.mk.inj (pure_ok.mp h)).2.symm⟩
  | some stored =>
    simp only [hobject] at h
    obtain ⟨_, hsame, hkept⟩ := bind_ok.mp h
    obtain rfl := not_not.mp (refuseIf_ok.mp hsame)
    exact .inr ⟨rfl, (Prod.mk.inj (pure_ok.mp hkept)).2.symm⟩

theorem stored_evolves {name : String} {row : ObjectRow} (h : db.objects name = none) :
    Evolves platform db { db with objects := Function.update db.objects name (some row) } where
  grows :=
    { epochs := fun _ => le_refl _
      manifests := fun key row hrow => ⟨row, hrow, .inl rfl⟩
      objects := fun other row hrow => by
        by_cases hother : other = name
        · subst hother
          cases h.symm.trans hrow
        · exact (Function.update_of_ne hother ..).trans hrow }
  consistent consistent :=
    { linked := consistent.linked
      access := consistent.access
      grants := consistent.grants
      backed := fun key row hrow => (consistent.backed key row hrow).moved fun at' run hrun =>
        ⟨run, hrun, rfl, le_refl _, rfl⟩ }
  lost _ _ hlost := hlost

theorem creating_evolves {key : ArtifactKey} {data : Bytes} {maxBytes : ℕ} {version : Digest}
    (h : creating platform db key data maxBytes = .ok (version, db')) :
    Evolves platform db db' := by
  obtain ⟨hnone, rfl⟩ | ⟨-, rfl⟩ := creating_ok h
  · exact stored_evolves hnone
  · exact .refl _

end AppraisalReview.Publication
