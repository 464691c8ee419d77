import LurusHub.TaskLedger
import LurusHub.Transition

/-! Async tasks from submission to their end. The poller loads the unfinished rows, works platform
by platform and channel by channel, and saves each object back whole; a user's fetch reads a row,
asks upstream and saves it as well. Nothing orders the saves. -/
namespace LurusHub.AsyncTask
open QuotaLedger PreConsume PostConsume

abbrev TaskStatus := String

def taskStatusNotStart : TaskStatus := "NOT_START"
def taskStatusSubmitted : TaskStatus := "SUBMITTED"
def taskStatusQueued : TaskStatus := "QUEUED"
def taskStatusInProgress : TaskStatus := "IN_PROGRESS"
def taskStatusFailure : TaskStatus := "FAILURE"
def taskStatusSuccess : TaskStatus := "SUCCESS"

def taskPlatformMidjourney : String := "mj"
def taskPlatformSuno : String := "suno"

structure Task where
  id : ℕ := 0
  (taskID platform : String)
  userID : ℕ
  group : String := ""
  channelID : ℕ
  quota : ℤ
  status : TaskStatus := taskStatusNotStart
  failReason : String := ""
  submitTime : ℤ := 0
  startTime : ℤ := 0
  finishTime : ℤ := 0
  progress : String := "0%"
  data : String := ""
  deriving DecidableEq

structure Settings where
  env : PostEnv := {}
  logConsumeEnabled : Bool := true
  taskQueryLimit : ℕ := 1000
  actualQuota : String → String → ℤ → Option ℤ := fun _ _ _ => none
  userGroup : ℕ → String := fun _ => ""
  fetchUpdates : ℕ → Bool := fun _ => true

/-! One answer about one task. -/

structure Outcome where
  task : Task
  books : Books
  refunded : Bool := false

structure SunoItem where
  taskID : String
  status : TaskStatus
  failReason : String := ""
  submitTime : ℤ := 0
  startTime : ℤ := 0
  finishTime : ℤ := 0
  data : String := ""
  deriving DecidableEq

/-- The data is compared byte by byte in sorted order. -/
def checkTaskNeedUpdate (old : Task) (new : SunoItem) : Bool :=
  old.submitTime ≠ new.submitTime || old.startTime ≠ new.startTime || old.finishTime ≠
    new.finishTime || old.status ≠ new.status ||
    old.failReason ≠ new.failReason ||
    ((old.status = taskStatusFailure || old.status = taskStatusSuccess) && old.progress ≠ "100%") ||
    !decide (old.data.toList.Perm new.data.toList)

def sunoStatus (task : Task) (item : SunoItem) : TaskStatus := if item.status ≠ "" then item.status else task.status

def sunoFailed (task : Task) (item : SunoItem) : Bool := item.failReason ≠ "" || sunoStatus task item = taskStatusFailure

/-- The body of the loop of `updateSunoTaskAll` up to the save. `err` is that of the save of the item before. -/
def updateSunoTask (cfg : Settings) (now : ℤ) (err : Bool) (task : Task) (item : SunoItem) (b : Books) : Outcome :=
  let failed := sunoFailed task item
  let refund := if failed && !err then refundTaskQuota cfg.env task.userID task.channelID task.quota now b else (b,false)
  { task :=
      { task with
        status := sunoStatus task item
        failReason := if item.failReason ≠ "" then item.failReason else task.failReason
        submitTime := if item.submitTime ≠ 0 then item.submitTime else task.submitTime
        startTime := if item.startTime ≠ 0 then item.startTime else task.startTime
        finishTime := if item.finishTime ≠ 0 then item.finishTime else task.finishTime
        progress := if failed || item.status = taskStatusSuccess then "100%" else task.progress
        data := item.data }
    books := refund.1
    refunded := refund.2 }

structure TaskInfo where
  status : TaskStatus
  url : String := ""
  reason : String := ""
  progress : String := ""
  totalTokens : ℤ := 0
  data : String := ""
  model : String := ""
  deriving DecidableEq

/-- An answer without a status counts as a failure. -/
def TaskInfo.normalised (r : TaskInfo) : TaskInfo :=
  if r.status = "" then { status := taskStatusFailure, reason := "upstream returned empty status", data := r.data, model := r.model } else r

def resettledQuota (cfg : Settings) (task : Task) (r : TaskInfo) : Option ℤ :=
  let group := if task.group = "" then cfg.userGroup task.userID else task.group
  if 0 < r.totalTokens ∧ r.model ≠ "" ∧ group ≠ "" then cfg.actualQuota r.model group r.totalTokens else none

def isDataURL (url : String) : Bool := "data:".toList.isPrefixOf url.toList

def settleVideoTask (cfg : Settings) (now : ℤ) (task : Task) (r : TaskInfo) (b : Books) : Books × ℤ :=
  match resettledQuota cfg task r with
  | none => (b,task.quota)
  | some actualQuota =>
    match resettleVideoTask cfg.env task.userID task.channelID task.submitTime task.quota actualQuota now b with
    | (b,true) => (b,actualQuota)
    | (b,false) => (b,task.quota)

def knownStatus (status : TaskStatus) : Bool :=
  status = taskStatusSubmitted || status = taskStatusQueued || status = taskStatusInProgress || status = taskStatusSuccess ||
    status = taskStatusFailure

/-- `updateVideoSingleTask` up to the save, on a parsed answer. An unknown status is left on the
object. -/
def settledVideoTask (cfg : Settings) (now : ℤ) (task : Task) (answer : TaskInfo) (b : Books) : Task × Books :=
  let r := answer.normalised
  let task := { task with data := r.data, status := r.status }
  let progress (p : String) := if r.progress ≠ "" then r.progress else p
  let finishTime := if task.finishTime = 0 then now else task.finishTime
  if r.status = taskStatusSubmitted then ({ task with progress := progress "10%" },b)
  else if r.status = taskStatusQueued then ({ task with progress := progress "20%" },b)
  else if r.status = taskStatusInProgress then
    ({ task with progress := progress "30%", startTime := if task.startTime = 0 then now else task.startTime },b)
  else if r.status = taskStatusSuccess then
    let settled := settleVideoTask cfg now task r b
    ({ task with
      progress := progress "100%", finishTime, quota := settled.2
      failReason := if isDataURL r.url && r.url ≠ "data:" then task.failReason else r.url },settled.1)
  else if r.status = taskStatusFailure then ({ task with progress := "100%", finishTime, failReason := r.reason },b)
  else (task,b)

/-- An object of a known status is saved, and refunded once it is. -/
def updateVideoSingleTask (cfg : Settings) (now : ℤ) (updateFails : Bool) (task : Task)
    (answer : TaskInfo) (b : Books) : Outcome :=
  let (task',b) := settledVideoTask cfg now task answer b
  let refund :=
    if updateFails = false ∧ task'.status = taskStatusFailure ∧ task.quota ≠ 0 ∧ task.status ≠ taskStatusFailure then
      refundTaskQuota cfg.env task.userID task.channelID task.quota now b
    else (b,false)
  ⟨task',refund.1,refund.2⟩

/-- A fetch writes what the answer says over the row it has read. -/
def fetchedTask (task : Task) (r : TaskInfo) : Task :=
  { task with
    status := if r.status ≠ "" then r.status else task.status
    progress := if r.progress ≠ "" then r.progress else task.progress
    failReason := if r.url ≠ "" ∧ isDataURL r.url = false then r.url else task.failReason }

/-! The system. -/

inductive Call
  | idle
  | suno (err : Bool)
  | video (taskIDs : List String)
  deriving DecidableEq

structure Pass where
  tasks : List Task
  platform : String := ""
  taskM : KeyedTable Task String Task.taskID := .empty
  taskChannelM : List (ℕ × List String) := []
  call : Call := .idle

def Pass.setObject (p : Pass) (taskID : String) (task : Task) (call : Call) : Pass :=
  { p with taskM := p.taskM.modify taskID fun t => { task with taskID := t.taskID }, call }

structure Fetch where
  name : ℕ
  task : Task

structure System where
  tasks : KeyedTable Task ℕ Task.id := .empty
  nextID : ℕ := 1
  books : Books
  pass : Option Pass := none
  fetches : KeyedTable Fetch ℕ Fetch.name := .empty
  charges : List (ℕ × ℤ) := []
  refunds : List (ℕ × ℤ) := []

def unfinished (t : Task) : Bool := t.progress ≠ "100%" && t.status ≠ taskStatusFailure && t.status ≠ taskStatusSuccess

def getAllUnFinishSyncTasks (cfg : Settings) (s : System) : List Task := (s.tasks.rows.filter unfinished).take cfg.taskQueryLimit

/-- `taskChannelM[channel] = append(taskChannelM[channel], id)`. -/
def addToChannel (m : List (ℕ × List String)) (t : Task) : List (ℕ × List String) :=
  match m with
  | [] => [(t.channelID,[t.taskID])]
  | (c,ids)::m => if c = t.channelID then (c,ids++[t.taskID])::m else (c,ids)::addToChannel m t

def failTask (t : Task) : Task := { t with status := taskStatusFailure, progress := "100%" }

abbrev Tasks := KeyedTable Task ℕ Task.id

def taskBulkUpdateByID (tasks : Tasks) (ids : List ℕ) : Tasks := tasks.updateWhere (fun t => decide (t.id ∈ ids)) failTask

def taskBulkUpdate (tasks : Tasks) (taskIDs : List String) (failReason : String) : Tasks :=
  tasks.updateWhere (fun t => decide (t.taskID ∈ taskIDs)) fun t => { failTask t with failReason }

/-- The rows are never deleted, so that `Update` is an update of the row. -/
def saveTask (tasks : Tasks) (t : Task) : Tasks := tasks.modify t.id fun r => { t with id := r.id }

def channelGone (platform : String) (channelID : ℕ) : String :=
  if platform = taskPlatformSuno then "获取渠道信息失败，请联系管理员，渠道ID："++channelID.repr
  else "Failed to get channel info, channel ID: "++channelID.repr

inductive Event
  | submit (info : RelayInfo) (task : Task) (now : ℤ)
  | relayed (log : Log)
  | load
  | platform (p : String) (updateFails : Bool)
  | channel (channelID : ℕ) (found updateFails : Bool)
  | sunoItem (item : SunoItem) (updateFails : Bool) (now : ℤ)
  | videoTask (answer : Option TaskInfo) (updateFails : Bool) (now : ℤ)
  | callEnd
  | fetch (name userID : ℕ) (taskID : String)
  | fetched (name : ℕ) (answer : Option TaskInfo) (updateFails : Bool)

/-- The row of a submission; upstream gives the task id, which may be empty. -/
def initTask (s : System) (info : RelayInfo) (t : Task) (now : ℤ) : Task where
  id := s.nextID
  taskID := t.taskID
  platform := t.platform
  userID := info.userId
  group := t.group
  channelID := t.channelID
  quota := t.quota
  submitTime := now
  data := t.data

def openPlatform (p : Pass) (platform : String) : Pass :=
  let named := p.tasks.filter fun t => t.platform = platform && t.taskID ≠ ""
  { tasks := p.tasks.filter fun t => t.platform ≠ platform
    platform
    taskM := named.foldl KeyedTable.put .empty
    taskChannelM := if platform = taskPlatformMidjourney then [] else named.foldl addToChannel [] }

def nullTaskIds (p : Pass) (platform : String) : List ℕ :=
  (p.tasks.filter fun t => t.platform = platform && t.taskID = "").map Task.id

def step (cfg : Settings) (s : System) : Event → System
  | .submit info t now =>
    let row := initTask s info t now
    { s with
      tasks := s.tasks.put row
      nextID := s.nextID+1
      books := chargeSubmission cfg.env cfg.logConsumeEnabled info t.channelID t.quota now s.books
      charges := (row.id,t.quota)::s.charges }
  | .relayed log => { s with books := s.books.addLog { log with logType := .consume, ofTask := false } }
  | .load => { s with pass := some ⟨getAllUnFinishSyncTasks cfg s,"",.empty,[],.idle⟩ }
  | .platform platform updateFails =>
    match s.pass with
    | none => s
    | some p =>
      { s with
        tasks := if updateFails then s.tasks else taskBulkUpdateByID s.tasks (nullTaskIds p platform)
        pass := some (openPlatform p platform) }
  | .channel channelID found updateFails =>
    match s.pass with
    | none => s
    | some p =>
      match p.taskChannelM.lookup channelID with
      | none => s
      | some taskIDs =>
        let rest := p.taskChannelM.filter fun m => m.1 ≠ channelID
        if found then
          { s with pass := some { p with
              taskChannelM := rest
              call := if p.platform = taskPlatformSuno then .suno false else .video taskIDs } }
        else
          { s with
            tasks := if updateFails then s.tasks else taskBulkUpdate s.tasks taskIDs (channelGone p.platform channelID)
            pass := some { p with taskChannelM := rest, call := .idle } }
  | .sunoItem item updateFails now =>
    match s.pass with
    | none => s
    | some p =>
      match p.call with
      | .suno err =>
        match p.taskM.get? item.taskID with
        -- a task that was not asked for is a nil pointer
        | none => { s with pass := none }
        | some task =>
          if checkTaskNeedUpdate task item then
            let o := updateSunoTask cfg now err task item s.books
            { s with
              tasks := if updateFails then s.tasks else saveTask s.tasks o.task
              books := o.books
              refunds := if o.refunded then (task.id,task.quota)::s.refunds else s.refunds
              pass := some (p.setObject item.taskID o.task (.suno updateFails)) }
          else s
      | _ => s
  | .videoTask answer updateFails now =>
    match s.pass with
    | none => s
    | some p =>
      match p.call with
      | .video (taskID::rest) =>
        match p.taskM.get? taskID,answer with
        | some task,some answer =>
          let o := updateVideoSingleTask cfg now updateFails task answer s.books
          { s with
            tasks := if updateFails || !knownStatus o.task.status then s.tasks else saveTask s.tasks o.task
            books := o.books
            refunds := if o.refunded then (task.id,task.quota)::s.refunds else s.refunds
            pass := some (p.setObject taskID o.task (.video rest)) }
        | _,_ => { s with pass := some { p with call := .video rest } }
      | _ => s
  | .callEnd => { s with pass := s.pass.map fun p => { p with call := .idle } }
  | .fetch name userID taskID =>
    if taskID = "" then s
    else match s.tasks.rows.find? fun t => t.userID = userID && t.taskID = taskID with
      | none => s
      | some t => if cfg.fetchUpdates t.channelID then { s with fetches := s.fetches.put ⟨name,t⟩ } else s
  | .fetched name answer updateFails =>
    match s.fetches.get? name,answer with
    | some f,some answer =>
      { s with
        tasks := if updateFails then s.tasks else saveTask s.tasks (fetchedTask f.task answer)
        fetches := s.fetches.delete name }
    | _,_ => { s with fetches := s.fetches.delete name }

end LurusHub.AsyncTask
