import AppraisalReview.RepositoryMoves

set_option autoImplicit false

/-!
# The task repository over whole runs

Each case has one active run about its current revision, and only that run has
open questions. Snapshots, runs, responses and pauses are append-only tables.
-/
namespace AppraisalReview.TaskRepository
open Raising (bind_ok)
open Relation (ReflTransGen)
variable {content : ContentDigest} {s s' : Repository content}

structure Appends (s s' : Repository content) : Prop where
  snapshots : s.snapshots.Extends s'.snapshots
  runs : s.runs.Extends s'.runs
  responses : s.responses.Extends s'.responses
  pauses : s.pauses.Extends s'.pauses

theorem Appends.refl (s : Repository content) : Appends s s :=
  ⟨Dict.Extends.refl _, Dict.Extends.refl _, Dict.Extends.refl _, Dict.Extends.refl _⟩

theorem Appends.trans {s'' : Repository content} (h : Appends s s') (h' : Appends s' s'') :
    Appends s s'' :=
  ⟨h.snapshots.trans h'.snapshots, h.runs.trans h'.runs, h.responses.trans h'.responses,
    h.pauses.trans h'.pauses⟩

structure Filed (s : Repository content) : Prop where
  snapshots : ∀ key snapshot, s.snapshots.get? key = some snapshot →
    s.current.get? key.1 ≠ none
  tasks : ∀ id task, s.tasks.get? id = some task → task.taskId = id
  responses : ∀ key result, s.responses.get? key = some result →
    key = (result.accepted.actor.actorId, result.accepted.command.idempotencyKey)

theorem Answers.snapshots {key : String × OpaqueID} {task : HumanTask}
    {prepared : Prepared content} (answers : Answers s key task prepared) :
    s.snapshots.Extends (store key task prepared s).snapshots := by
  simp only [store]
  split_ifs with hchanged
  · exact Dict.extends_set _ _ (by rw [answers.case]; exact (answers.child hchanged).1)
  · exact Dict.Extends.refl _

theorem Answers.runs {key : String × OpaqueID} {task : HumanTask}
    {prepared : Prepared content} (answers : Answers s key task prepared) :
    s.runs.Extends (store key task prepared s).runs := by
  simp only [store]
  cases hrun : prepared.change.nextRun with
  | none => exact Dict.Extends.refl _
  | some run => exact Dict.extends_set _ _ (answers.nextRun run hrun).2

theorem Move.appends (filed : Filed s) (h : Move s s') : Appends s s' := by
  have refl := Appends.refl s
  cases h with
  | @registered snapshot run review about unknown fresh =>
    refine { refl with snapshots := Dict.extends_set _ _ ?_, runs := Dict.extends_set _ _ fresh }
    rw [Option.eq_none_iff_forall_ne_some]
    exact fun stored hstored => filed.snapshots _ stored hstored unknown
  | asked => exact { refl with }
  | paused unpaused => exact { refl with pauses := Dict.extends_set _ _ unpaused }
  | answered answers => exact {
      snapshots := answers.snapshots
      runs := answers.runs
      responses := Dict.extends_set _ _ answers.unused
      pauses := Dict.Extends.refl _ }
  | reviewed => exact { refl with }

def afterAnswer (task : HumanTask) (revision : RevisionReference) (superseding : Bool)
    (old : HumanTask) : HumanTask :=
  if old.taskId = task.taskId then task.restate .answered
  else if superseding ∧ old.run.revision = revision ∧ old.state = .open then
    old.restate .superseded
  else old

theorem rewritten_get? (filed : Filed s) {task : HumanTask} (revision : RevisionReference)
    (superseding : Bool) (stored : s.tasks.get? task.taskId = some task) (id : UUID) :
    (rewritten task revision superseding s).get? id =
      (s.tasks.get? id).map (afterAnswer task revision superseding) := by
  have answered : (s.tasks.set task.taskId (task.restate .answered)).get? id =
      (s.tasks.get? id).map (afterAnswer task revision false) := by
    rw [Dict.get?_set]
    by_cases hid : id = task.taskId
    · rw [if_pos hid, hid, stored, Option.map_some, afterAnswer, if_pos rfl]
    · rw [if_neg hid]
      cases hold : s.tasks.get? id with
      | none => rfl
      | some old =>
        have hne : old.taskId ≠ task.taskId := by rw [filed.tasks id old hold]; exact hid
        simp [afterAnswer, hne]
  cases superseding with
  | false => exact answered
  | true =>
    have distinct : ((siblings task revision s).map Prod.fst).Nodup :=
      s.tasks.keysNodup.sublist (List.filter_sublist.map _)
    simp only [rewritten, if_pos]
    rw [Dict.get?_foldl_set (HumanTask.restate · .superseded) _ distinct, answered, siblings,
      Dict.find_filter _ _ s.tasks.keysNodup]
    change ((s.tasks.get? id).filter _ |>.map _).or _ = _
    cases hold : s.tasks.get? id with
    | none => rfl
    | some old =>
      have hid := filed.tasks id old hold
      by_cases htask : id = task.taskId
      · simp [htask, afterAnswer, hid, Option.filter]
      · by_cases hopen : old.run.revision = revision ∧ old.state = .open
        · simp [htask, afterAnswer, hid, hopen, Option.filter]
        · simp [htask, afterAnswer, hid, Option.filter]
          grind

inductive Follows (old : HumanTask) : HumanTask → Prop
  | same : Follows old old
  | answered : old.state = .open → Follows old (old.restate .answered)
  | superseded : old.state = .open → Follows old (old.restate .superseded)

theorem Follows.question {old new : HumanTask} (h : Follows old new) :
    new.run = old.run ∧ new.requiredPermission = old.requiredPermission ∧
      new.taskId = old.taskId := by
  cases h <;> exact ⟨rfl, rfl, rfl⟩

theorem Follows.answeredStays {old new : HumanTask} (h : Follows old new)
    (hold : old.state = .answered) : new = old := by
  cases h with
  | same => rfl
  | answered hopen => rw [hold] at hopen; cases hopen
  | superseded hopen => rw [hold] at hopen; cases hopen

theorem afterAnswer_follows {task old : HumanTask} {revision : RevisionReference}
    {superseding : Bool} (isOpen : task.state = .open)
    (only : old.taskId = task.taskId → old = task) :
    Follows old (afterAnswer task revision superseding old) := by
  unfold afterAnswer
  split_ifs with hid hopen
  · rw [only hid]
    exact .answered isOpen
  · exact .superseded hopen.2.2
  · exact .same

theorem Answers.tasks {key : String × OpaqueID} {task : HumanTask} {prepared : Prepared content}
    (filed : Filed s) (answers : Answers s key task prepared) (id : UUID) :
    (store key task prepared s).tasks.get? id = (s.tasks.get? id).map
      (afterAnswer task task.run.revision
        (prepared.change.changed || prepared.change.nextRun.isSome)) := by
  rw [← answers.answered]
  exact rewritten_get? filed _ _ answers.stored id

theorem Move.follows (filed : Filed s) (h : Move s s') {id : UUID} {old : HumanTask}
    (hold : s.tasks.get? id = some old) : ∃ new, s'.tasks.get? id = some new ∧ Follows old new := by
  cases h with
  | asked active fresh => exact ⟨old, Dict.extends_set _ _ fresh id old hold, .same⟩
  | @answered key task prepared answers =>
    rw [answers.tasks filed, hold]
    refine ⟨_, rfl, afterAnswer_follows answers.isOpen fun hid => ?_⟩
    rw [filed.tasks id old hold] at hid
    rw [hid, answers.stored] at hold
    exact (Option.some.inj hold).symm
  | registered | paused | reviewed => exact ⟨old, hold, .same⟩

structure Sound (s : Repository content) : Prop extends Filed s where
  registered : ∀ case revision, s.current.get? case = some revision →
    ∃ run, run.revision.caseId = case ∧ run.revision.revisionId = revision ∧ Active s run
  working : ∀ case, s.activeRun.get? case ≠ none → s.current.get? case ≠ none
  questions : ∀ id task, s.tasks.get? id = some task → task.state = .open → Active s task.run
  answers : ∀ key result, s.responses.get? key = some result →
    ∃ task, s.tasks.get? result.accepted.command.taskId = some task ∧ task.state = .answered
  single : ∀ key key' result result', s.responses.get? key = some result →
    s.responses.get? key' = some result' →
    result.accepted.command.taskId = result'.accepted.command.taskId → key = key'

theorem sound_empty : Sound ({} : Repository content) where
  snapshots := fun _ _ h => absurd h (by simp)
  tasks := fun _ _ h => absurd h (by simp)
  responses := fun _ _ h => absurd h (by simp)
  registered := fun _ _ h => absurd h (by simp)
  working := fun _ h => absurd rfl h
  questions := fun _ _ h => absurd h (by simp)
  answers := fun _ _ h => absurd h (by simp)
  single := fun _ _ _ _ h => absurd h (by simp)

theorem Sound.of_same (sound : Sound s) (snapshots : s'.snapshots = s.snapshots)
    (current : s'.current = s.current) (activeRun : s'.activeRun = s.activeRun)
    (runs : s'.runs = s.runs) (tasks : s'.tasks = s.tasks)
    (responses : s'.responses = s.responses) : Sound s' := by
  have still : ∀ run, Active s run → Active s' run := fun run active =>
    active.of_same (by rw [runs]) (by rw [current]) (by rw [activeRun])
      (by rw [snapshots]; exact Dict.Extends.refl _)
  constructor
  · constructor
    · rw [snapshots, current]
      exact sound.snapshots
    · rw [tasks]
      exact sound.tasks
    · rw [responses]
      exact sound.responses
  · rw [current]
    intro case revision hcurrent
    obtain ⟨run, hcase, hrevision, active⟩ := sound.registered case revision hcurrent
    exact ⟨run, hcase, hrevision, still run active⟩
  · rw [activeRun, current]
    exact sound.working
  · rw [tasks]
    exact fun id task hstored hopen => still _ (sound.questions id task hstored hopen)
  · rw [responses, tasks]
    exact sound.answers
  · rw [responses]
    exact sound.single

theorem Sound.register (sound : Sound s) {snapshot : RevisionSnapshot content}
    {run : RunReference} {review : CaseReviewResult}
    (about : run.revision = snapshot.revision.reference)
    (unknown : s.current.get? run.revision.caseId = none)
    (fresh : s.runs.get? run.runId = none) : Sound { s with
      snapshots := s.snapshots.set (run.revision.caseId, run.revision.revisionId) snapshot
      current := s.current.set run.revision.caseId run.revision.revisionId
      activeRun := s.activeRun.set run.revision.caseId run.runId
      runs := s.runs.set run.runId run
      reviews := s.reviews.set run.runId review } := by
  have appends := Move.appends sound.toFiled (@Move.registered _ _ snapshot run review about unknown fresh)
  have other : ∀ run', Active s run' → Active { s with
      snapshots := s.snapshots.set (run.revision.caseId, run.revision.revisionId) snapshot
      current := s.current.set run.revision.caseId run.revision.revisionId
      activeRun := s.activeRun.set run.revision.caseId run.runId
      runs := s.runs.set run.runId run
      reviews := s.reviews.set run.runId review } run' := by
    intro run' active
    have hcase : run'.revision.caseId ≠ run.revision.caseId := by
      intro hcase
      rw [← hcase, active.current] at unknown
      cases unknown
    have hrun : run'.runId ≠ run.runId := by
      intro hrun
      rw [← hrun, active.known] at fresh
      cases fresh
    exact active.of_same (Dict.get?_set_of_ne _ _ hrun) (Dict.get?_set_of_ne _ _ hcase)
      (Dict.get?_set_of_ne _ _ hcase) appends.snapshots
  constructor
  · constructor
    · intro key stored hstored
      rw [Dict.get?_set] at hstored ⊢
      split_ifs with hcase
      · exact Option.some_ne_none _
      · rw [if_neg (fun hkey => hcase (by rw [hkey]))] at hstored
        exact sound.snapshots key stored hstored
    · exact sound.tasks
    · exact sound.responses
  · intro case revision hcurrent
    rw [Dict.get?_set] at hcurrent
    split_ifs at hcurrent with hcase
    · obtain rfl := Option.some.inj hcurrent
      exact ⟨run, hcase.symm, rfl, Dict.get?_set_self .., Dict.get?_set_self ..,
        Dict.get?_set_self .., snapshot, Dict.get?_set_self .., about.symm⟩
    · obtain ⟨run', hcase', hrevision, active⟩ := sound.registered case revision hcurrent
      exact ⟨run', hcase', hrevision, other run' active⟩
  · intro case hactive
    rw [Dict.get?_set] at hactive ⊢
    split_ifs at hactive ⊢
    · exact Option.some_ne_none _
    · exact sound.working case hactive
  · exact fun id task hstored hopen => other _ (sound.questions id task hstored hopen)
  · exact sound.answers
  · exact sound.single

theorem Sound.ask (sound : Sound s) {task : HumanTask} (active : Active s task.run)
    (fresh : s.tasks.get? task.taskId = none) :
    Sound { s with tasks := s.tasks.set task.taskId task } := by
  have still : ∀ run, Active s run →
      Active { s with tasks := s.tasks.set task.taskId task } run :=
    fun run active => ⟨active.known, active.current, active.active, active.stored⟩
  constructor
  · constructor
    · exact sound.snapshots
    · intro id new hnew
      rw [Dict.get?_set] at hnew
      split_ifs at hnew with hid
      · rw [hid, ← Option.some.inj hnew]
      · exact sound.tasks id new hnew
    · exact sound.responses
  · intro case revision hcurrent
    obtain ⟨run, hcase, hrevision, active'⟩ := sound.registered case revision hcurrent
    exact ⟨run, hcase, hrevision, still run active'⟩
  · exact sound.working
  · intro id new hnew hopen
    rw [Dict.get?_set] at hnew
    split_ifs at hnew with hid
    · rw [← Option.some.inj hnew]
      exact still _ active
    · exact still _ (sound.questions id new hnew hopen)
  · intro key result hresult
    obtain ⟨old, hold, hanswered⟩ := sound.answers key result hresult
    exact ⟨old, Dict.extends_set _ _ fresh _ old hold, hanswered⟩
  · exact sound.single

theorem Answers.goesOn {key : String × OpaqueID} {task : HumanTask} {prepared : Prepared content}
    (answers : Answers s key task prepared) :
    ∃ run, run.revision.caseId = task.run.revision.caseId ∧
      Active (store key task prepared s) run := by
  obtain ⟨snapshot, hsnapshot, href⟩ := answers.active.stored
  cases hrun : prepared.change.nextRun with
  | none =>
    have hchanged : prepared.change.changed = false := by
      by_contra hchanged
      have h := (answers.child (by simpa using hchanged)).2
      rw [hrun] at h
      cases h
    refine ⟨task.run, rfl, ?_⟩
    exact answers.active.of_same (by simp [store, hrun]) (by simp [store, hchanged])
      (by simp [store, hrun]) answers.snapshots
  | some run =>
    obtain ⟨habout, -⟩ := answers.nextRun run hrun
    have hcase : run.revision.caseId = task.run.revision.caseId := by rw [habout, answers.case]
    refine ⟨run, hcase, by simp [store, hrun], ?_, by simp [store, hrun, habout], ?_⟩
    · cases hchanged : prepared.change.changed with
      | true => simp [store, hchanged, habout]
      | false =>
        rw [habout, answers.unchanged hchanged]
        simpa [store, hchanged] using answers.active.current
    · cases hchanged : prepared.change.changed with
      | true =>
        exact ⟨prepared.change.snapshot, by simp [store, hchanged, habout], habout.symm⟩
      | false =>
        rw [habout, answers.unchanged hchanged]
        exact ⟨snapshot, by simpa [store, hchanged] using hsnapshot, href⟩

section
variable {key : String × OpaqueID} {task : HumanTask} {prepared : Prepared content}
variable (answers : Answers s key task prepared)
include answers

theorem Answers.snapshots_other {k : OpaqueID × OpaqueID}
    (other : k.1 ≠ task.run.revision.caseId) :
    (store key task prepared s).snapshots.get? k = s.snapshots.get? k := by
  rw [← answers.case] at other
  simp only [store]
  split_ifs
  · exact Dict.get?_set_of_ne _ _ fun h => other (by rw [h])
  · rfl

theorem Answers.current_other {case : OpaqueID} (other : case ≠ task.run.revision.caseId) :
    (store key task prepared s).current.get? case = s.current.get? case := by
  rw [← answers.case] at other
  simp only [store]
  split_ifs
  · exact Dict.get?_set_of_ne _ _ other
  · rfl

theorem Answers.activeRun_other {case : OpaqueID} (other : case ≠ task.run.revision.caseId) :
    (store key task prepared s).activeRun.get? case = s.activeRun.get? case := by
  rw [← answers.case] at other
  simp only [store]
  cases prepared.change.nextRun with
  | none => rfl
  | some run => exact Dict.get?_set_of_ne _ _ other

theorem Answers.others {run : RunReference} (active : Active s run)
    (other : run.revision.caseId ≠ task.run.revision.caseId) :
    Active (store key task prepared s) run := by
  refine active.of_same ?_ (answers.current_other other) (answers.activeRun_other other)
    answers.snapshots
  rw [active.known]
  exact answers.runs _ _ active.known

theorem Answers.current : (store key task prepared s).current.get? task.run.revision.caseId ≠ none := by
  obtain ⟨run, hcase, active⟩ := answers.goesOn
  rw [← hcase, active.current]
  exact Option.some_ne_none _

theorem Answers.filed (filed : Filed s) : Filed (store key task prepared s) where
  snapshots k snapshot hstored := by
    by_cases hk : k.1 = task.run.revision.caseId
    · rw [hk]
      exact answers.current
    · rw [answers.snapshots_other hk] at hstored
      rw [answers.current_other hk]
      exact filed.snapshots k snapshot hstored
  tasks id new hnew := by
    rw [answers.tasks filed, Option.map_eq_some_iff] at hnew
    obtain ⟨old, hold, rfl⟩ := hnew
    unfold afterAnswer
    split_ifs with hid
    · exact hid.symm.trans (filed.tasks id old hold)
    · exact filed.tasks id old hold
    · exact filed.tasks id old hold
  responses k result hresult := by
    simp only [store, Dict.get?_set] at hresult
    split_ifs at hresult with hk
    · rw [hk, ← Option.some.inj hresult]
      exact answers.key
    · exact filed.responses k result hresult

theorem Answers.registered (sound : Sound s) {case revision : OpaqueID}
    (hcurrent : (store key task prepared s).current.get? case = some revision) :
    ∃ run, run.revision.caseId = case ∧ run.revision.revisionId = revision ∧
      Active (store key task prepared s) run := by
  by_cases hk : case = task.run.revision.caseId
  · obtain ⟨run, hcase, active⟩ := answers.goesOn
    have h := active.current
    rw [hcase, ← hk, hcurrent] at h
    exact ⟨run, hcase.trans hk.symm, (Option.some.inj h).symm, active⟩
  · rw [answers.current_other hk] at hcurrent
    obtain ⟨run, hcase, hrevision, active⟩ := sound.registered case revision hcurrent
    exact ⟨run, hcase, hrevision, answers.others active (by rw [hcase]; exact hk)⟩

theorem Answers.working (sound : Sound s) {case : OpaqueID}
    (hactive : (store key task prepared s).activeRun.get? case ≠ none) :
    (store key task prepared s).current.get? case ≠ none := by
  by_cases hk : case = task.run.revision.caseId
  · rw [hk]
    exact answers.current
  · rw [answers.activeRun_other hk] at hactive
    rw [answers.current_other hk]
    exact sound.working case hactive

theorem Answers.questions (sound : Sound s) {id : UUID} {new : HumanTask}
    (hnew : (store key task prepared s).tasks.get? id = some new) (hopen : new.state = .open) :
    Active (store key task prepared s) new.run := by
  rw [answers.tasks sound.toFiled, Option.map_eq_some_iff] at hnew
  obtain ⟨old, hold, rfl⟩ := hnew
  unfold afterAnswer at hopen ⊢
  split_ifs at hopen ⊢ with hid hsuperseded
  · cases hopen
  · cases hopen
  · have active := sound.questions id old hold hopen
    by_cases hother : old.run.revision.caseId = task.run.revision.caseId
    · -- The same case asks about the answered revision only, so its work stood still.
      have hsame := active.unique answers.active hother
      have hstill : ¬ (prepared.change.changed || prepared.change.nextRun.isSome) = true :=
        fun h => hsuperseded ⟨h, by rw [hsame], hopen⟩
      rw [Bool.or_eq_true, not_or, Bool.not_eq_true, Bool.not_eq_true,
        Option.isSome_eq_false_iff, Option.isNone_iff_eq_none] at hstill
      exact active.of_same (by simp [store, hstill.2]) (by simp [store, hstill.1])
        (by simp [store, hstill.2]) answers.snapshots
    · exact answers.others active hother

theorem Answers.unanswered (sound : Sound s) {k : String × OpaqueID} {result : HumanResponseResult}
    (hresult : s.responses.get? k = some result) :
    result.accepted.command.taskId ≠ task.taskId := by
  intro hid
  obtain ⟨old, hold, hanswered⟩ := sound.answers k result hresult
  rw [hid, answers.stored] at hold
  rw [← Option.some.inj hold, answers.isOpen] at hanswered
  cases hanswered

theorem Answers.recorded (sound : Sound s) {k : String × OpaqueID} {result : HumanResponseResult}
    (hresult : (store key task prepared s).responses.get? k = some result) :
    ∃ new, (store key task prepared s).tasks.get? result.accepted.command.taskId = some new ∧
      new.state = .answered := by
  simp only [store, Dict.get?_set] at hresult
  split_ifs at hresult with hk
  · rw [← Option.some.inj hresult, answers.taskId, answers.tasks sound.toFiled, answers.stored]
    exact ⟨_, rfl, by simp [afterAnswer, HumanTask.restate]⟩
  · obtain ⟨old, hold, hanswered⟩ := sound.answers k result hresult
    have move : Move s (store key task prepared s) := .answered answers
    obtain ⟨new, hnew, follows⟩ := move.follows sound.toFiled hold
    exact ⟨new, hnew, by rw [follows.answeredStays hanswered]; exact hanswered⟩

theorem Answers.single (sound : Sound s) {k k' : String × OpaqueID}
    {result result' : HumanResponseResult}
    (hresult : (store key task prepared s).responses.get? k = some result)
    (hresult' : (store key task prepared s).responses.get? k' = some result')
    (hsame : result.accepted.command.taskId = result'.accepted.command.taskId) : k = k' := by
  simp only [store, Dict.get?_set] at hresult hresult'
  split_ifs at hresult hresult' with hk hk'
  · rw [hk, hk']
  · rw [← Option.some.inj hresult, answers.taskId] at hsame
    exact absurd hsame.symm (answers.unanswered sound hresult')
  · rw [← Option.some.inj hresult', answers.taskId] at hsame
    exact absurd hsame (answers.unanswered sound hresult)
  · exact sound.single k k' result result' hresult hresult' hsame

end

theorem Sound.answer (sound : Sound s) {key : String × OpaqueID} {task : HumanTask}
    {prepared : Prepared content} (answers : Answers s key task prepared) :
    Sound (store key task prepared s) where
  toFiled := answers.filed sound.toFiled
  registered _ _ hcurrent := answers.registered sound hcurrent
  working _ hactive := answers.working sound hactive
  questions _ _ hnew hopen := answers.questions sound hnew hopen
  answers _ _ hresult := answers.recorded sound hresult
  single _ _ _ _ hresult hresult' hsame := answers.single sound hresult hresult' hsame

theorem Sound.move (sound : Sound s) (h : Move s s') : Sound s' := by
  cases h with
  | registered about unknown fresh => exact sound.register about unknown fresh
  | asked active fresh => exact sound.ask active fresh
  | paused => exact sound.of_same rfl rfl rfl rfl rfl rfl
  | answered answers => exact sound.answer answers
  | reviewed => exact sound.of_same rfl rfl rfl rfl rfl rfl

structure Later (s s' : Repository content) : Prop where
  sound : Sound s'
  appends : Appends s s'
  asked : ∀ id old, s.tasks.get? id = some old → ∃ new, s'.tasks.get? id = some new ∧
    new.run = old.run ∧ new.requiredPermission = old.requiredPermission

theorem Sound.later (sound : Sound s) (h : ReflTransGen Move s s') : Later s s' := by
  induction h with
  | refl => exact ⟨sound, Appends.refl s, fun id old hold => ⟨old, hold, rfl, rfl⟩⟩
  | tail _ move ih =>
    refine ⟨ih.sound.move move, ih.appends.trans (move.appends ih.sound.toFiled), ?_⟩
    intro id old hold
    obtain ⟨middle, hmiddle, hrun, hpermission⟩ := ih.asked id old hold
    obtain ⟨new, hnew, follows⟩ := move.follows ih.sound.toFiled hmiddle
    obtain ⟨hrun', hpermission', -⟩ := follows.question
    exact ⟨new, hnew, hrun'.trans hrun, hpermission'.trans hpermission⟩

theorem run_sound (digest : TaskDigest) (calls : List (Call content)) :
    Sound (run digest ({} : Repository content) calls) :=
  (sound_empty.later (run_moves digest calls)).sound

theorem respond_recorded {principal : Principal} {command : HumanResponse}
    {transition : TaskTransition content} {eventId : UUID} {result : HumanResponseResult}
    (h : respond principal command transition eventId s = (.ok result, s')) :
    MayAnswer s principal command.taskId ∧
      s'.responses.get? (principal.actor.actorId, command.idempotencyKey) = some result ∧
      result.accepted = { command := command, actor := principal.actor } := by
  have hcases := respond_cases (s := s) principal command transition eventId
  rw [h] at hcases
  obtain ⟨may, responded⟩ := hcases
  refine ⟨may, ?_⟩
  cases responded with
  | replayed stored same actor => exact ⟨stored, by rw [← same, ← actor]⟩
  | answered stored unused prepares isResult =>
    obtain ⟨found, outcome, hprepared⟩ := prepare_ok prepares
    rw [isResult]
    exact ⟨Dict.get?_set_self .., hprepared.accepted⟩

/-- The stored result is returned for good, whatever the transition would do now. -/
theorem respond_replays {principal : Principal} {command : HumanResponse}
    {transition : TaskTransition content} {eventId : UUID} {result : HumanResponseResult}
    {later : Repository content} (h : respond principal command transition eventId s = (.ok result, s'))
    (before : Later s later) (after : Later s' later) (transition' : TaskTransition content)
    (eventId' : UUID) :
    respond principal command transition' eventId' later = (.ok result, later) := by
  obtain ⟨⟨human, task, hstored, hreview, hpermission⟩, hrecorded, haccepted⟩ := respond_recorded h
  obtain ⟨new, hnew, hrun, hneeded⟩ := before.asked _ task hstored
  rw [← hrun] at hreview hpermission
  rw [← hneeded] at hpermission
  have hrecord := after.appends.responses _ _ hrecorded
  have hread : readTask principal command.taskId later = .ok new := by
    rw [readTask, hnew]
    exact bind_ok.mpr ⟨(), hreview, rfl⟩
  simp [respond, hread, hpermission, human, hrecord, haccepted]

theorem pause_recorded {digest : TaskDigest} {principal : Principal} {pauseId : UUID}
    {result : BoundedWorkflowResult} {checkpoint : WorkflowPause}
    (h : pause digest principal pauseId result s = (.ok checkpoint, s')) :
    terminalShape result = .ok () ∧ principal.require result.run.revision.caseId .review = .ok () ∧
      Principal.mayAsk principal ∧ s'.pauses.get? result.run.runId = some checkpoint ∧
      checkpoint.result = result := by
  unfold pause at h
  cases hshape : terminalShape result with
  | error fault =>
    rw [hshape] at h
    cases h
  | ok shape =>
    rw [hshape] at h
    simp only at h
    cases hrequire : principal.require result.run.revision.caseId .review with
    | error fault =>
      rw [hrequire] at h
      cases h
    | ok authorized =>
      rw [hrequire] at h
      simp only at h
      by_cases hkind : ¬ Principal.mayAsk principal
      · rw [if_pos hkind] at h
        cases h
      rw [if_neg hkind] at h
      refine ⟨rfl, rfl, not_not.mp hkind, ?_⟩
      cases hprior : s.pauses.get? result.run.runId with
      | some prior =>
        simp only [hprior] at h
        by_cases hsame : prior.result ≠ result
        · rw [if_pos hsame] at h
          cases h
        · rw [if_neg hsame] at h
          cases h
          exact ⟨hprior, not_not.mp hsame⟩
      | none =>
        simp only [hprior] at h
        cases hcheckpoint : TaskRepository.checkpoint digest principal pauseId result s with
        | error fault =>
          rw [hcheckpoint] at h
          cases h
        | ok stored =>
          rw [hcheckpoint] at h
          cases h
          exact ⟨Dict.get?_set_self .., checkpoint_ok hcheckpoint⟩

theorem pause_replays {digest : TaskDigest} {principal : Principal} {pauseId : UUID}
    {result : BoundedWorkflowResult} {checkpoint : WorkflowPause} {later : Repository content}
    (h : pause digest principal pauseId result s = (.ok checkpoint, s')) (after : Later s' later)
    (pauseId' : UUID) : pause digest principal pauseId' result later = (.ok checkpoint, later) := by
  obtain ⟨hshape, hrequire, hkind, hrecorded, hresult⟩ := pause_recorded h
  have hrecord := after.appends.pauses _ _ hrecorded
  simp [pause, hshape, hrequire, hkind, hrecord, hresult]

/-- In every state of a run the tables agree; whatever is called next, stored
snapshots, runs, responses and pauses stay, a call that raises changes nothing,
and a repeated command returns what it returned before. -/
theorem run_repository_integrity (digest : TaskDigest) (calls : List (Call content)) :
    let s := run digest ({} : Repository content) calls
    Sound s ∧
      (∀ later, Appends s (run digest s later)) ∧
      (∀ call fault, (step digest s call).1 = .error fault → (step digest s call).2 = s) ∧
      (∀ principal command transition eventId result s',
        respond principal command transition eventId s = (.ok result, s') →
        ∀ later transition' eventId', respond principal command transition' eventId'
          (run digest s' later) = (.ok result, run digest s' later)) ∧
      (∀ principal pauseId result checkpoint s',
        pause digest principal pauseId result s = (.ok checkpoint, s') →
        ∀ later pauseId', pause digest principal pauseId' result (run digest s' later) =
          (.ok checkpoint, run digest s' later)) := by
  intro s
  have sound : Sound s := run_sound digest calls
  refine ⟨sound, fun later => (sound.later (run_moves digest later)).appends, ?_, ?_, ?_⟩
  · intro call fault hfault
    have h := step_moves (s := s) digest call
    rw [Moves, hfault] at h
    exact h
  · intro principal command transition eventId result s' h later transition' eventId'
    have moves := respond_moves (s := s) principal command transition eventId
    rw [h] at moves
    have before := sound.later moves.reach
    have after := before.sound.later (run_moves digest later)
    exact respond_replays h (sound.later (moves.reach.trans (run_moves digest later))) after
      transition' eventId'
  · intro principal pauseId result checkpoint s' h later pauseId'
    have moves := pause_moves (s := s) digest principal pauseId result
    rw [h] at moves
    exact pause_replays h ((sound.later moves.reach).sound.later (run_moves digest later)) pauseId'

end AppraisalReview.TaskRepository
