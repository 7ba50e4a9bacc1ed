import AppraisalReview.PublicationEffects

set_option autoImplicit false

/-!
# What every publication call ends with

One rule for the operations, then one postcondition for each call, however the
other calls moved the tables between its transactions.
-/
namespace AppraisalReview.Publication
open Interleaving ArtifactPublication Raising
open MemoryJobStore (Store Job Run Attempt Linked Lost)

variable {platform : Platform} {db db' : Database} {seen : List (Weather × Database)}

section
variable (platform)

/-- What the outside showed to each operation of a call, and the tables that it left. -/
abbrev Looks := List (Weather × Database)

/-- The call lets the tables evolve, and a normal end meets `post`. -/
abbrev Ends {α : Type} (post : α → Looks → Database → Prop) (call : Call α) (seen : Looks)
    (db : Database) : Prop :=
  Program.Meets (serve platform) (Evolves platform) post call seen db

end

def Op.quiet : Op → Prop
  | .job _ | .approve .. | .revoke _ | .commit .. | .create .. => False
  | _ => True

theorem serve_quiet {op : Op} (h : op.quiet) (weather : Weather) :
    (serve platform weather op db).2 = db := by
  cases op <;> first | rfl | cases h

theorem ask_ends {op : Op} {post : Answer op → Looks → Database → Prop}
    (h : ∀ db' weather, Evolves platform db db' →
      Evolves platform db' (serve platform weather op db').2 ∧
        ∀ a, (serve platform weather op db').1 = .ok a →
          post a (seen ++ [(weather, (serve platform weather op db').2)])
            (serve platform weather op db').2) : Ends platform post (ask op) seen db :=
  .bind (.ask fun db' hdb weather =>
    ⟨(h db' weather hdb).1, .ofExcept fun a ha => (h db' weather hdb).2 a ha⟩)

theorem quiet_ends {o : Op} (quiet : o.quiet) {post : Answer o → Looks → Database → Prop}
    (h : ∀ db', Evolves platform db db' → ∀ weather a, (serve platform weather o db').1 = .ok a →
      post a (seen ++ [(weather, db')]) db') : Ends platform post (ask o) seen db := by
  refine ask_ends fun db' weather hdb => ?_
  rw [serve_quiet quiet]
  exact ⟨.refl _, h db' hdb weather⟩

theorem within_ends {op : Op} {post : Answer op → Looks → Database → Prop}
    {body : Weather → Database → Except Refusal (Answer op × Database)}
    (served : ∀ weather db', serve platform weather op db' = within db' (body weather db'))
    (h : ∀ weather db' a db'', body weather db' = .ok (a, db'') →
      Evolves platform db' db'' ∧ post a (seen ++ [(weather, db'')]) db'') :
    Ends platform post (ask op) seen db := by
  refine ask_ends fun db' weather _ => ?_
  rw [served]
  cases hbody : body weather db' with
  | error refusal =>
    refine ⟨.refl _, fun a ha => ?_⟩
    cases show Except.error refusal = Except.ok a from ha
  | ok answer =>
    obtain ⟨hevolves, hpost⟩ := h weather db' answer.1 answer.2 hbody
    refine ⟨hevolves, fun a ha => ?_⟩
    obtain rfl := Except.ok.inj ha
    exact hpost

theorem checked_ends {α β : Type} {x : Except Refusal α} {f : α → Call β}
    {post : β → Looks → Database → Prop} (h : ∀ a, x = .ok a → Ends platform post (f a) seen db) :
    Ends platform post (Program.ofExcept x >>= f) seen db :=
  .bind (.ofExcept h)

theorem sources_ends {principal : Principal} {candidate : ManifestCandidate}
    {post : Unit → Looks → Database → Prop}
    (h : ∀ seen' db', Evolves platform db db' → post () seen' db') :
    Ends platform post (sources principal candidate) seen db :=
  quiet_ends (o := .sources ..) trivial fun db' hdb _ _ _ => h _ db' hdb

theorem sourcesEach_ends {principal : Principal} {snapshots : List (ManifestCandidate × Pinned)} :
    Ends platform (fun _ _ _ => True) (sourcesEach principal snapshots) seen db := by
  induction snapshots generalizing seen db with
  | nil => exact .returns trivial
  | cons snapshot rest ih => exact .bind (sources_ends fun _ _ _ => ih)

theorem authorizing_open {clock : ℕ → Int} {principal : Principal} {caseId : OpaqueID}
    {permission : Permission} {answer : Int × List (ManifestCandidate × Pinned)}
    (h : authorizing platform clock db principal caseId permission = .ok answer) :
    Open db caseId := by
  obtain ⟨expires, haccess, -⟩ := bind_ok.mp h
  exact access_open haccess

theorem reauthorizing_open {clock : ℕ → Int} {principal : Principal} {caseId : OpaqueID}
    {permission : Permission} {snapshots : List (ManifestCandidate × Pinned)} {expires : Int}
    (h : reauthorizing platform clock db principal caseId permission snapshots = .ok expires) :
    Open db caseId := by
  obtain ⟨_, haccess, -⟩ := bind_ok.mp h
  exact access_open haccess

theorem authorize_ends {principal : Principal} {caseId : OpaqueID} {permission : Permission} :
    Ends platform (fun _ _ db => Open db caseId) (authorize principal caseId permission) seen
      db := by
  refine .bind (quiet_ends (o := .authorize ..) trivial fun db₁ _ weather answer hanswer => ?_)
  obtain ⟨expires, snapshots⟩ := answer
  cases snapshots with
  | nil => exact .bind (.returns (.returns (authorizing_open hanswer)))
  | cons snapshot rest =>
    refine .bind (sourcesEach_ends.mono fun _ _ db₂ _ => ?_)
    exact quiet_ends (o := .reauthorize ..) trivial fun _ _ _ _ => reauthorizing_open

theorem approved_open {candidate : ManifestCandidate} {principal : Principal} {pinned : Pinned}
    {expires : Int} : Open (db.approved platform candidate principal pinned expires)
      candidate.caseId :=
  ⟨principal.actor.actorId, _, Function.update_self .., rfl⟩

theorem approve_ends {ttl : ℕ} {candidate : ManifestCandidate} {principal : Principal}
    {before : Pinned} (unrevoked : before.epoch = 0) :
    Ends platform (fun _ _ db => Open db candidate.caseId)
      (ask (.approve ttl candidate principal before)) seen db := by
  refine within_ends (fun _ _ => rfl) fun weather db' digest db'' h => ?_
  obtain ⟨pinned, approves⟩ := approving_ok h
  obtain rfl := approves.written
  refine ⟨approved_evolves ?_, approved_open⟩
  rw [← approves.taken.epoch, ← (Prod.mk.inj approves.same).2]
  exact unrevoked

theorem approveExact_ends {configuration : Configuration} {candidate : ManifestCandidate}
    {principal : Principal} : Ends platform (fun _ _ db => Open db candidate.caseId)
      (approveExact configuration candidate principal) seen db := by
  refine checked_ends fun _ _ => checked_ends fun _ _ => checked_ends fun _ _ => ?_
  refine .bind (quiet_ends (o := .before _) trivial fun _ _ _ before _ => ?_)
  refine checked_ends fun _ hepoch => checked_ends fun _ _ => ?_
  exact .bind (sources_ends fun _ _ _ => approve_ends (not_not.mp (refuseIf_ok.mp hepoch)))

theorem revoke_ends {caseId : OpaqueID} :
    Ends platform (fun _ _ db => db.epochs caseId ≠ 0) (revoke caseId) seen db := by
  refine ask_ends fun db' _ _ => ⟨revoked_evolves caseId, fun _ _ => ?_⟩
  change Function.update db'.epochs caseId (db'.epochs caseId + 1) caseId ≠ 0
  rw [Function.update_self]
  exact Nat.succ_ne_zero _

/-- Where a commit of the attempt's token ended, by what the clock showed to its transaction. -/
structure Committed (platform : Platform) (clock : ℕ → Int) (db : Database)
    (candidate : ManifestCandidate) (token : ℕ) (principal : Principal)
    (attempt : PublicationAttempt) (result : CommittedManifest) : Prop where
  standing : Standing db result
  proposed : result.candidate = candidate
  fenced : result.fencingToken = token
  opened : Open db candidate.caseId
  /-- The attempt was the live one and had exactly this candidate granted, all at once. -/
  authorized : ∃ pinned, PinnedAt platform db candidate pinned ∧
    Live (clock 0) pinned candidate attempt token ∧
    Permitted platform (clock 1) (clock 2) db candidate .publish principal pinned
  held : Linked db.review → ∀ claimed : ClaimedAttempt, claimed.jobId = attempt.jobId →
    claimed.runId = candidate.run.runId → claimed.fencingToken = token → ¬ Lost db.review claimed

theorem Commits.ends {clock : ℕ → Int} {candidate : ManifestCandidate} {token : ℕ}
    {principal : Principal} {attempt : PublicationAttempt} {pinned : Pinned}
    {result : CommittedManifest}
    (h : Commits platform clock db candidate token principal attempt pinned result db') :
    Committed platform clock db' candidate token principal attempt result := by
  have held : Linked db.review → ∀ claimed : ClaimedAttempt, claimed.jobId = attempt.jobId →
      claimed.runId = candidate.run.runId → claimed.fencingToken = token →
      ¬ Lost db.review claimed := by
    rintro linked claimed hjob hrun htoken ⟨run, hstored, hlost⟩
    have hpinned := h.taken.stored linked
    rw [hjob, hrun, ← h.live.job, hpinned] at hstored
    obtain rfl := Option.some.inj hstored
    obtain hlt | ⟨-, hnone⟩ := hlost
    · exact absurd h.live.fenced (by omega)
    · exact absurd (h.live.leased.symm.trans hnone) (Option.some_ne_none _)
  have opened := h.opened
  have written := h.written
  have authorized : PinnedAt platform db candidate pinned ∧ Live (clock 0) pinned candidate attempt
      token ∧ Permitted platform (clock 1) (clock 2) db candidate .publish principal pinned :=
    ⟨h.taken, h.live, h.permitted⟩
  obtain rfl := h.made
  clear h
  obtain ⟨rfl, -⟩ | ⟨rfl, standing⟩ := written
  · have written : (db.committed principal (committedManifest platform candidate token)).published
        candidate = some ⟨principal.actor.actorId, token, platform.digest candidate,
          committedManifest platform candidate token⟩ :=
      (Dict.get?_set ..).trans (if_pos rfl)
    -- a pin and a permission read none of the manifests
    obtain ⟨⟨htaken, hrow, hrun, hevidenced, hepoch⟩, live, permitted⟩ := authorized
    obtain ⟨human, owner, access, granted⟩ := permitted
    exact ⟨⟨_, written, rfl, rfl⟩, rfl, rfl, opened,
      ⟨pinned, ⟨htaken, hrow, hrun, hevidenced, hepoch⟩, live, human, owner, access, granted⟩, held⟩
  · exact ⟨standing, rfl, rfl, opened, ⟨pinned, authorized⟩, held⟩

theorem commit_ends {candidate : ManifestCandidate} {token : ℕ} {principal : Principal}
    {attempt : PublicationAttempt} : Ends platform
      (fun result seen db => ∃ weather, seen.getLast? = some (weather, db) ∧
        Committed platform weather.clock db candidate token principal attempt result)
      (commit candidate token principal attempt) seen db := by
  refine checked_ends fun _ hcomplete => .bind (authorize_ends.mono fun _ _ _ _ => ?_)
  refine .bind (quiet_ends (o := .before _) trivial fun _ _ _ before _ => ?_)
  refine checked_ends fun _ _ => .bind (sources_ends fun _ _ _ => ?_)
  refine within_ends (fun _ _ => rfl) fun weather db' result db'' h => ?_
  obtain ⟨pinned, commits⟩ := committing_ok h
  exact ⟨commits.evolves (checkCandidate_ok hcomplete), weather, List.getLast?_concat,
    commits.ends⟩

theorem reading_ok {clock : ℕ → Int} {caseId : OpaqueID} {runId : UUID} {result : CommittedManifest}
    {principal : Principal} {before : Pinned}
    (h : reading platform clock db caseId runId = .ok (some (result, principal, before))) :
    result.candidate.run.runId = runId ∧ result.candidate.caseId = caseId := by
  obtain ⟨found, -, h⟩ := bind_ok.mp h
  split at h
  · next row other hstored =>
    obtain ⟨_, hkey, h⟩ := bind_ok.mp h
    obtain ⟨allowed, -, h⟩ := bind_ok.mp h
    obtain ⟨pinned, -, h⟩ := bind_ok.mp h
    obtain ⟨_, -, h⟩ := bind_ok.mp h
    obtain ⟨_, -, h⟩ := bind_ok.mp h
    obtain ⟨rfl, -⟩ := Prod.mk.inj (Option.some.inj (pure_ok.mp h))
    have hpassed := refuseIf_ok.mp hkey
    push Not at hpassed
    exact hpassed
  · cases pure_ok.mp h

/-- A manifest may be shown under its live attempt, or as the committed result. -/
def Exposed (clock : Int) (pinned : Pinned) (result : CommittedManifest) : Prop :=
  (∃ attempt : PublicationAttempt,
    Live clock pinned result.candidate attempt result.fencingToken) ∨ Succeeded pinned result

theorem readable_ok {clock : Int} {pinned : Pinned} {result : CommittedManifest} {u : Unit}
    (h : readable clock pinned result = .ok u) : Exposed clock pinned result := by
  unfold readable at h
  split at h
  · obtain ⟨leaseOwner, -, h⟩ := bind_ok.mp h
    exact .inl ⟨_, live_ok h⟩
  · exact .inr (not_not.mp (refuseIf_ok.mp h))

structure ReadAt (platform : Platform) (clock : ℕ → Int) (db : Database) (caseId : OpaqueID)
    (runId : UUID) (result : CommittedManifest) : Prop where
  standing : Standing db result
  opened : Open db caseId
  asked : result.candidate.caseId = caseId ∧ result.candidate.run.runId = runId
  authorized : ∃ pinned principal, PinnedAt platform db result.candidate pinned ∧
    Exposed (clock 2) pinned result ∧
    Permitted platform (clock 0) (clock 1) db result.candidate .review principal pinned

theorem rereading_ok {clock : ℕ → Int} {caseId : OpaqueID} {runId : UUID}
    {result other : CommittedManifest} {principal : Principal} {before : Pinned}
    (hrun : result.candidate.run.runId = runId) (hcase : result.candidate.caseId = caseId)
    (h : rereading platform clock db caseId runId result principal before = .ok other) :
    other = result ∧ ReadAt platform clock db caseId runId result := by
  obtain ⟨current, hpin, h⟩ := bind_ok.mp h
  obtain ⟨_, -, h⟩ := bind_ok.mp h
  obtain ⟨_, howner, h⟩ := bind_ok.mp h
  obtain ⟨_, haccess, h⟩ := bind_ok.mp h
  obtain ⟨_, hgrant, h⟩ := bind_ok.mp h
  obtain ⟨_, hreadable, h⟩ := bind_ok.mp h
  obtain ⟨latest, hlatest, h⟩ := bind_ok.mp h
  obtain ⟨_, hsame, h⟩ := bind_ok.mp h
  obtain rfl := pure_ok.mp h
  obtain ⟨hstored, hbound⟩ := manifest_ok hlatest
  rw [not_not.mp (refuseIf_ok.mp hsame)] at hstored
  obtain ⟨row, hrow, hpayload⟩ := Option.map_eq_some_iff.mp hstored.symm
  subst hrun hcase
  have htoken : row.fencingToken = result.fencingToken := by
    rw [← hpayload]
    exact (Prod.mk.inj (hbound row hrow).2).1.symm
  exact ⟨rfl, ⟨row, hrow, hpayload, htoken⟩, access_open haccess, ⟨rfl, rfl⟩,
    current, principal, pin_ok hpin, readable_ok hreadable, (owner_ok howner).1,
    (owner_ok howner).2, (access_ok haccess).2, grant_ok hgrant⟩

theorem read_ends {caseId : OpaqueID} {runId : UUID} : Ends platform
    (fun found seen db => ∀ result ∈ found, ∃ weather, seen.getLast? = some (weather, db) ∧
      ReadAt platform weather.clock db caseId runId result)
    (read caseId runId) seen db := by
  refine .bind (quiet_ends (o := .read ..) trivial fun _ _ _ answer hanswer => ?_)
  cases answer with
  | none => exact .returns fun result hresult => by cases hresult
  | some first =>
    obtain ⟨result, principal, before⟩ := first
    obtain ⟨hrun, hcase⟩ := reading_ok hanswer
    refine .bind (quiet_ends (o := .reread ..) trivial fun _ _ weather other hother =>
      .returns ?_)
    obtain ⟨hsame, readAt⟩ := rereading_ok hrun hcase hother
    intro found hfound
    obtain rfl : result = found := hsame.symm.trans (Option.some.inj hfound)
    exact ⟨weather, List.getLast?_concat, readAt⟩

/-- The object of the artifact is stored, and is what the artifact says. -/
def Staged (platform : Platform) (artifact : PublishedArtifact) (data : Bytes) (db : Database) :
    Prop :=
  (∃ row, db.objects artifact.key.key = some row ∧ row.body = data) ∧
    verify platform data artifact = .ok ()

theorem Staged.later {artifact : PublishedArtifact} {data : Bytes}
    (evolves : Evolves platform db db') (h : Staged platform artifact data db) :
    Staged platform artifact data db' := by
  obtain ⟨⟨row, hrow, hbody⟩, hverify⟩ := h
  exact ⟨⟨row, evolves.grows.objects _ row hrow, hbody⟩, hverify⟩

theorem fetching_ok {artifact : PublishedArtifact} {maxBytes : ℕ} {data : Bytes}
    (h : fetching platform db artifact maxBytes = .ok data) :
    ∃ row, db.objects artifact.key.key = some row ∧ row.body = data := by
  obtain ⟨_, -, h⟩ := bind_ok.mp h
  obtain ⟨row, hrow, h⟩ := bind_ok.mp h
  obtain ⟨_, -, h⟩ := bind_ok.mp h
  exact ⟨row, (Option.filter_eq_some_iff.mp (orRefuse_ok.mp hrow)).1, pure_ok.mp h⟩

variable {configuration : Configuration}

theorem fetchVerified_ends {artifact : PublishedArtifact} :
    Ends platform (fun data _ db => Staged platform artifact data db)
      (fetchVerified platform configuration artifact) seen db :=
  .bind (quiet_ends (o := .fetch ..) trivial fun _ _ _ _ hdata =>
    checked_ends fun _ hverify => .returns ⟨fetching_ok hdata, hverify⟩)

theorem verifyEach_ends {artifacts : List PublishedArtifact} :
    Ends platform (fun _ _ db => ∀ artifact ∈ artifacts, ∃ data, Staged platform artifact data db)
      (verifyEach platform configuration artifacts) seen db := by
  induction artifacts generalizing seen db with
  | nil => exact .returns fun artifact hmem => by cases hmem
  | cons artifact rest ih =>
    refine checked_ends fun _ _ => checked_ends fun _ _ => .bind (fetchVerified_ends.mono ?_)
    intro data seen₁ db₁ staged
    refine (ih.frame (K := fun _ db => Staged platform artifact data db)
      (fun _ _ _ _ evolves => Staged.later evolves) staged).mono ?_
    rintro _ _ db₂ ⟨hrest, hfirst⟩ other hother
    obtain rfl | hother := List.mem_cons.mp hother
    · exact ⟨data, hfirst⟩
    · exact hrest other hother

theorem publish_ends {candidate : ManifestCandidate} {token : ℕ} {principal : Principal}
    {attempt : PublicationAttempt} : Ends platform
      (fun result seen db => (∃ weather, seen.getLast? = some (weather, db) ∧
          Committed platform weather.clock db candidate token principal attempt result) ∧
        ∀ artifact ∈ candidate.artifacts, ∃ data, Staged platform artifact data db)
      (publish platform configuration candidate token principal attempt) seen db := by
  refine .bind (authorize_ends.mono fun _ _ _ _ => checked_ends fun _ _ => ?_)
  refine .bind (verifyEach_ends.mono fun _ seen₁ db₁ staged => commit_ends.frame (K := fun _ db =>
    ∀ artifact ∈ candidate.artifacts, ∃ data, Staged platform artifact data db) ?_ staged)
  intro _ _ db₂ db₃ evolves hstaged artifact hartifact
  obtain ⟨data, hdata⟩ := hstaged artifact hartifact
  exact ⟨data, hdata.later evolves⟩

/-- The manifest was stored once, and only a later token has replaced it. -/
def Recorded (db : Database) (result : CommittedManifest) : Prop :=
  ∃ row, db.published result.candidate = some row ∧
    ((row.payload = result ∧ row.fencingToken = result.fencingToken) ∨
      result.fencingToken < row.fencingToken)

theorem Standing.recorded {result : CommittedManifest} (h : Standing db result) :
    Recorded db result := by
  obtain ⟨row, hrow, hstored⟩ := h
  exact ⟨row, hrow, .inl hstored⟩

theorem Recorded.later {result : CommittedManifest} (evolves : Evolves platform db db')
    (h : Recorded db result) : Recorded db' result := by
  obtain ⟨row, hrow, hpayload⟩ := h
  obtain ⟨row', hrow', rfl | hlt⟩ := evolves.grows.manifests _ row hrow
  · exact ⟨row', hrow', hpayload⟩
  · refine ⟨row', hrow', .inr ?_⟩
    obtain ⟨rfl, htoken⟩ | hlater := hpayload
    · exact htoken ▸ hlt
    · exact hlater.trans hlt

/-- Some operation of the call left tables in which the manifest was the stored one. -/
def Shown (seen : Looks) (result : CommittedManifest) : Prop :=
  ∃ look ∈ seen, Standing look.2 result

theorem Shown.later {result : CommittedManifest} (h : Shown seen result) (more : Looks) :
    Shown (seen ++ more) result := by
  obtain ⟨look, hlook, standing⟩ := h
  exact ⟨look, List.mem_append_left _ hlook, standing⟩

theorem shown_last {weather : Weather} {result : CommittedManifest}
    (last : seen.getLast? = some (weather, db)) (standing : Standing db result) :
    Shown seen result :=
  ⟨(weather, db), List.mem_of_getLast? last, standing⟩

/-- Where a download ended: the bytes of an artifact of a manifest of the run asked for. -/
structure Served (platform : Platform) (seen : Looks) (db : Database) (caseId : OpaqueID)
    (runId artifactId : UUID) (artifact : PublishedArtifact) (data : Bytes) : Prop where
  opened : Open db caseId
  staged : Staged platform artifact data db
  named : artifact.artifactId = artifactId
  listed : ∃ manifest : CommittedManifest, artifact ∈ manifest.candidate.artifacts ∧
    manifest.candidate.caseId = caseId ∧ manifest.candidate.run.runId = runId ∧
    Shown seen manifest

theorem result_ends {principal : Principal} {caseId : OpaqueID} {runId : UUID} :
    Ends platform (fun found seen _ => ∀ result ∈ found, Shown seen result ∧
        result.candidate.caseId = caseId ∧ result.candidate.run.runId = runId)
      (result principal caseId runId) seen db := by
  refine .bind (authorize_ends.mono fun _ seen₁ db₁ _ =>
    .bind (read_ends.mono fun found seen₂ db₂ hread => ?_))
  have shown : ∀ result ∈ found, Shown seen₂ result ∧
      result.candidate.caseId = caseId ∧ result.candidate.run.runId = runId := by
    intro result hresult
    obtain ⟨weather, last, readAt⟩ := hread result hresult
    exact ⟨shown_last last readAt.standing, readAt.asked⟩
  refine .bind ((authorize_ends.frame (K := fun seen _ => ∀ result ∈ found, Shown seen result) ?_
    fun result hresult => (shown result hresult).1).mono ?_)
  · exact fun _ more _ _ _ hkept result hresult => (hkept result hresult).later more
  · exact fun _ seen₃ db₃ h => .returns fun result hresult =>
      ⟨h.2 result hresult, (shown result hresult).2⟩

theorem verifiedBytes_ends {principal : Principal} {caseId : OpaqueID} {runId artifactId : UUID} :
    Ends platform (fun answer seen db =>
        Served platform seen db caseId runId artifactId answer.1 answer.2)
      (verifiedBytes platform configuration principal caseId runId artifactId) seen db := by
  refine .bind (result_ends.mono fun found seen₁ db₁ hfound => ?_)
  split
  · exact .raises _
  · next artifact hartifact =>
    obtain ⟨manifest, hmanifest, hartifact⟩ := Option.bind_eq_some_iff.mp hartifact
    obtain ⟨shown, hcase, hrun⟩ := hfound manifest hmanifest
    refine checked_ends fun _ _ => ?_
    refine .bind ((fetchVerified_ends.frame (K := fun seen _ => Shown seen manifest)
      (fun _ more _ _ _ h => h.later more) shown).mono ?_)
    rintro data seen₂ db₂ ⟨staged, shown₂⟩
    refine .bind ((authorize_ends.frame (K := fun seen db => Shown seen manifest ∧
      Staged platform artifact data db) ?_ ⟨shown₂, staged⟩).mono ?_)
    · exact fun _ more _ _ evolves hkept => ⟨hkept.1.later more, hkept.2.later evolves⟩
    · rintro _ seen₃ db₃ ⟨opened, shown₃, staged₃⟩
      refine .returns ⟨opened, staged₃, ?_, manifest, List.mem_of_find?_eq_some hartifact, hcase,
        hrun, shown₃⟩
      simpa using List.find?_some hartifact

theorem stored_objects {name : String} {row : ObjectRow} :
    ({ db with objects := Function.update db.objects name (some row) } : Database).objects name =
      some row := Function.update_self ..

theorem create_ends {key : ArtifactKey} {data : Bytes} {maxBytes : ℕ} :
    Ends platform (fun _ _ db => db.objects key.key = some (objectRow platform key data))
      (ask (.create key data maxBytes)) seen db := by
  refine within_ends (fun _ _ => rfl) fun weather db' version db'' h => ⟨creating_evolves h, ?_⟩
  obtain ⟨-, rfl⟩ | ⟨hrow, rfl⟩ := creating_ok h
  · exact stored_objects
  · exact hrow

def Post (platform : Platform) : Request → Result → Looks → Database → Prop
  | .job _, .job _, _, _ => True
  | .create _ key data, .created _, _, db =>
    db.objects key.key = some (objectRow platform key data)
  | .approveExact _ candidate _, .approved _, _, db => Open db candidate.caseId
  | .revoke caseId, .revoked, _, db => db.epochs caseId ≠ 0
  | .authorize _ caseId _, .authorized _, _, db => Open db caseId
  | .commit candidate token principal attempt, .manifest result, seen, db =>
    ∃ weather, seen.getLast? = some (weather, db) ∧
      Committed platform weather.clock db candidate token principal attempt result
  | .publish _ candidate token principal attempt, .manifest result, seen, db =>
    (∃ weather, seen.getLast? = some (weather, db) ∧
      Committed platform weather.clock db candidate token principal attempt result) ∧
      ∀ artifact ∈ candidate.artifacts, ∃ data, Staged platform artifact data db
  | .read caseId runId, .manifest result, seen, db =>
    ∃ weather, seen.getLast? = some (weather, db) ∧
      ReadAt platform weather.clock db caseId runId result
  | .read _ _, .nothing, _, _ => True
  | .verifiedBytes _ _ caseId runId artifactId, .bytes artifact data, seen, db =>
    Served platform seen db caseId runId artifactId artifact data
  | _, _, _, _ => False

theorem program_ends (request : Request) (db : Database) :
    Ends platform (Post platform request) (request.program platform) [] db := by
  cases request with
  | job op =>
    exact .bind (ask_ends fun _ _ _ => ⟨job_evolves _ op, fun _ _ => .returns trivial⟩)
  | create configuration key data => exact .bind (create_ends.mono fun _ _ _ h => .returns h)
  | approveExact configuration candidate principal =>
    exact .bind (approveExact_ends.mono fun _ _ _ h => .returns h)
  | revoke caseId => exact .bind (revoke_ends.mono fun _ _ _ h => .returns h)
  | authorize principal caseId permission =>
    exact .bind (authorize_ends.mono fun _ _ _ h => .returns h)
  | commit candidate token principal attempt =>
    exact .bind (commit_ends.mono fun _ _ _ h => .returns h)
  | publish configuration candidate token principal attempt =>
    exact .bind (publish_ends.mono fun _ _ _ h => .returns h)
  | read caseId runId =>
    refine .bind (read_ends.mono fun found seen₁ db₁ h => ?_)
    cases found with
    | none => exact .returns trivial
    | some result => exact .returns (h result rfl)
  | verifiedBytes configuration principal caseId runId artifactId =>
    exact .bind (verifiedBytes_ends.mono fun _ _ _ h => .returns h)

end AppraisalReview.Publication
