import LurusHub.CrashRuns
import LurusHub.KeyedTable
import LurusHub.Transition
import Mathlib.Data.List.Sort

/-! The erasure executor: `executeErasure` takes a request through six steps and writes the cursor
after each. Any statement may fail and the process may stop anywhere; a later pass resumes at the
cursor. A table deleted by owner is reduced to the owner column; tables created on first use may be
missing. A `HasTable` probe that fails answers that there is no table. -/
namespace LurusHub.PrivacyErasure

open CrashRuns CrashRuns.Program

def erasedMarker : String := "[erased]"

inductive ErasureStatus where
  | pending
  | completed
  | noData
  deriving DecidableEq

inductive ErasureStep where
  | none
  | tokensDeleted
  | mappingsDeleted
  | contentDeleted
  | logsAnonymized
  | auditScrubbed
  | unknown (value : String)
  deriving DecidableEq

def ErasureStep.value : ErasureStep → String
  | .none => ""
  | .tokensDeleted => "tokens_deleted"
  | .mappingsDeleted => "mappings_deleted"
  | .contentDeleted => "content_deleted"
  | .logsAnonymized => "logs_anonymized"
  | .auditScrubbed => "audit_scrubbed"
  | .unknown value => value

structure PrivacyErasureRequest where
  (id userId : ℤ)
  status : ErasureStatus
  step : ErasureStep
  logsScrubbed : ℕ
  lastError : List UInt8
  createdAt : ℤ
  deriving DecidableEq

structure Row where
  userId : ℤ
  deriving DecidableEq

structure Owned where
  (id userId : ℤ)
  deriving DecidableEq

structure ChatMessage where
  (id sessionId userId : ℤ)
  deriving DecidableEq

structure Midjourney where
  (id userId : ℤ)
  (status progress : String)
  deriving DecidableEq

inductive TaskStatus where
  | notStart
  | submitted
  | queued
  | inProgress
  | failure
  | success
  | unknown
  deriving DecidableEq

structure Task where
  userId : ℤ
  status : TaskStatus
  (progress failReason : String)
  (properties data : Option String)
  deriving DecidableEq

structure QuotaData where
  userId : ℤ
  username : String
  deriving DecidableEq

structure AdminPermissionGrant where
  userId : ℤ
  revokedAt : Option ℤ
  deriving DecidableEq

structure Log where
  (id userId createdAt : ℤ)
  (content username tokenName modelName : String)
  (quota promptTokens completionTokens : ℤ)
  (ip other employeeRef : String)
  deriving DecidableEq

inductive ActorType where
  | user
  | admin
  | system
  | token
  deriving DecidableEq

structure AuditEvent where
  id : ℤ
  actorType : ActorType
  actorId : ℤ
  (details ip : String)
  deriving DecidableEq

structure User where
  id : ℤ
  (username displayName email remark setting : String)
  accessToken : Option String
  lurusAccountId : Option ℤ
  status : ℤ
  deletedAt : Option ℤ
  deriving DecidableEq

inductive OwnerTable where
  | tokens
  | userSessions
  | responseRegistry
  | identityMappings
  | playgroundPresets
  deriving DecidableEq

inductive LazyTable where
  | userTotps
  | userTotpBackupCodes
  | projectMembers
  deriving DecidableEq

structure Db where
  requests : KeyedTable PrivacyErasureRequest ℤ PrivacyErasureRequest.id
  owned : OwnerTable → List Row
  ownedLazily : LazyTable → Option (List Row)
  permissionGrants : List AdminPermissionGrant
  chatMessages : KeyedTable ChatMessage ℤ ChatMessage.id
  chatSessions : KeyedTable Owned ℤ Owned.id
  midjourneys : KeyedTable Midjourney ℤ Midjourney.id
  tasks : List Task
  quotaData : List QuotaData
  logBodies : KeyedTable Owned ℤ Owned.id
  logs : KeyedTable Log ℤ Log.id
  auditEvents : KeyedTable AuditEvent ℤ AuditEvent.id
  users : KeyedTable User ℤ User.id

structure Pass where
  probeFails : LazyTable → ℤ → Bool
  now : ℤ
  replies : List Reply

def withoutUser (userID : ℤ) (rows : List Row) : List Row := rows.filter fun r => r.userId ≠ userID

def hasTable {α : Type} (table : Option α) (probeFails : Bool) : Bool := table.isSome && !probeFails

/-- `SELECT id ... WHERE p ORDER BY id ASC LIMIT batchSize`. -/
def batchIds {R : Type} {key : R → ℤ} (t : KeyedTable R ℤ key) (p : R → Bool) (batchSize : ℤ) : List ℤ :=
  (((t.rows.filter p).map key).insertionSort (· ≤ ·)).take (if batchSize ≤ 0 then 500 else batchSize.toNat)

/-- The batch functions: select ids, and write the rows of these ids if there are any. -/
def batch (selectWords writeWords : String) (ids : Db → List ℤ) (write : List ℤ → Db → Db) :
    Program Db (List ℤ) := do
  let found ← select selectWords ids
  if found = [] then pure []
  else do
    execute writeWords (write found)
    pure found

def Db.deleteOwned (table : OwnerTable) (userID : ℤ) (db : Db) : Db :=
  { db with owned := Function.update db.owned table (withoutUser userID (db.owned table)) }

def Db.deleteOwnedLazily (table : LazyTable) (userID : ℤ) (db : Db) : Db :=
  { db with ownedLazily := Function.update db.ownedLazily table ((db.ownedLazily table).map (withoutUser userID)) }

def hardDeleteOwned (words : String) (table : OwnerTable) (userID : ℤ) : Program Db Unit :=
  execute words (Db.deleteOwned table userID)

/-- The deletes by owner from tables created on first use: nothing to do without the table. -/
def hardDeleteOwnedLazily (words : String) (table : LazyTable) (probeFails : Bool) (userID : ℤ) : Program Db Unit := do
  let there ← observe fun db => hasTable (db.ownedLazily table) probeFails
  if there then execute words (Db.deleteOwnedLazily table userID) else pure ()

def hardDeleteUserTokens : ℤ → Program Db Unit := hardDeleteOwned "hard delete user tokens: " .tokens

def hardDeleteUserTOTP : Bool → ℤ → Program Db Unit := hardDeleteOwnedLazily "hard delete user totp: " .userTotps

def hardDeleteUserTOTPBackupCodes : Bool → ℤ → Program Db Unit :=
  hardDeleteOwnedLazily "hard delete user totp backup codes: " .userTotpBackupCodes

def hardDeleteUserSessions : ℤ → Program Db Unit := hardDeleteOwned "hard delete user sessions: " .userSessions

def hardDeleteUserProjectMembers : Bool → ℤ → Program Db Unit :=
  hardDeleteOwnedLazily "hard delete user project members: " .projectMembers

def hardDeleteUserResponseRegistry : ℤ → Program Db Unit :=
  hardDeleteOwned "hard delete response registry: " .responseRegistry

def activeGrant (userID : ℤ) (g : AdminPermissionGrant) : Bool := g.userId = userID && g.revokedAt.isNone

def revokePermissionGrantsForUser (now userID : ℤ) : Program Db Unit :=
  if userID ≤ 0 then pure ()
  else do
    let grants ← select s!"load active grants for user {userID}: " fun db =>
      db.permissionGrants.filter (activeGrant userID)
    if grants = [] then pure ()
    else execute s!"revoke permission grants for user {userID}: " fun db =>
      { db with permissionGrants := db.permissionGrants.map fun g =>
          if activeGrant userID g then { g with revokedAt := some now } else g }

def hardDeleteUserIdentityMappings : ℤ → Program Db Unit :=
  hardDeleteOwned "hard delete identity mappings: " .identityMappings

/-- A message is reached by its session's owner or by its own user. -/
def messageOf (db : Db) (userID : ℤ) (m : ChatMessage) : Bool :=
  (db.chatSessions.rows.any fun s => s.userId = userID && s.id = m.sessionId) || m.userId = userID

def hardDeleteChatMessagesBatch (userID batchSize : ℤ) : Program Db (List ℤ) :=
  batch "hard delete chat messages batch select: " "hard delete chat messages batch delete: "
    (fun db => batchIds db.chatMessages (messageOf db userID) batchSize)
    fun ids db => { db with chatMessages := db.chatMessages.deleteWhere fun m => m.id ∈ ids }

def hardDeleteChatSessionsBatch (userID batchSize : ℤ) : Program Db (List ℤ) :=
  batch "hard delete chat sessions batch select: " "hard delete chat sessions batch delete: "
    (fun db => batchIds db.chatSessions (fun s => s.userId = userID) batchSize)
    fun ids db => { db with chatSessions := db.chatSessions.deleteWhere fun s => s.id ∈ ids }

def pollerDoneProgress : String := "100%"

def erasedTaskFailReason : String := "erased"

def stillPolled (userID : ℤ) (m : Midjourney) : Bool := m.userId = userID && m.progress ≠ pollerDoneProgress

def Midjourney.finished (m : Midjourney) : Midjourney :=
  { m with progress := pollerDoneProgress, status := "FAILURE" }

def terminaliseOpenMidjourneyForUser (userID : ℤ) : Program Db Unit :=
  execute "terminalise midjourney rows: " fun db =>
    { db with midjourneys := db.midjourneys.updateWhere (stillPolled userID) Midjourney.finished }

def hardDeleteMidjourneyBatch (userID batchSize : ℤ) : Program Db (List ℤ) :=
  batch "hard delete midjourney batch select: " "hard delete midjourney batch delete: "
    (fun db => batchIds db.midjourneys (fun m => m.userId = userID) batchSize)
    fun ids db => { db with midjourneys := db.midjourneys.deleteWhere fun m => m.id ∈ ids }

def terminaliseOpenTasksForUser (userID : ℤ) : Program Db Unit :=
  execute "terminalise open tasks: " fun db =>
    { db with tasks := db.tasks.map fun t =>
        if t.userId = userID ∧ t.status ≠ .failure ∧ t.status ≠ .success then
          { t with status := .failure, progress := pollerDoneProgress, failReason := erasedTaskFailReason }
        else t }

def scrubTasksForUser (userID : ℤ) : Program Db Unit :=
  execute "scrub tasks: " fun db =>
    { db with tasks := db.tasks.map fun t =>
        if t.userId = userID then { t with properties := none, data := none, failReason := "" } else t }

def scrubQuotaDataUsernameForUser (userID : ℤ) : Program Db Unit :=
  execute "scrub quota data username: " fun db =>
    { db with quotaData := db.quotaData.map fun q =>
        if q.userId = userID ∧ q.username ≠ erasedMarker then { q with username := erasedMarker } else q }

def hardDeletePlaygroundPresetsForUser : ℤ → Program Db Unit :=
  hardDeleteOwned "hard delete playground presets: " .playgroundPresets

def hardDeleteLogBodiesBatch (userID batchSize : ℤ) : Program Db (List ℤ) :=
  batch "" "" (fun db => batchIds db.logBodies (fun b => b.userId = userID) batchSize)
    fun ids db => { db with logBodies := db.logBodies.deleteWhere fun b => b.id ∈ ids }

def Log.anonymized (l : Log) : Log :=
  { l with username := erasedMarker, tokenName := erasedMarker, ip := "", content := "", other := "",
           employeeRef := "" }

/-- Rows that carry the marker as username count as done. -/
def Log.toScrub (userID : ℤ) (l : Log) : Bool := l.userId = userID && l.username ≠ erasedMarker

def anonymizeLogsBatch (userID batchSize : ℤ) : Program Db (List ℤ) :=
  batch "anonymize logs batch select: " "anonymize logs batch update: "
    (fun db => batchIds db.logs (Log.toScrub userID) batchSize)
    fun ids db => { db with logs := db.logs.updateWhere (fun l => l.id ∈ ids) Log.anonymized }

def AuditEvent.scrubbed (e : AuditEvent) : AuditEvent := { e with ip := "", details := erasedMarker }

def AuditEvent.toScrub (userID : ℤ) (e : AuditEvent) : Bool :=
  e.actorId = userID && e.actorType = .user && (e.ip ≠ "" || e.details ≠ erasedMarker)

/-- The update is one transaction; its result is the number of rows it met. -/
def scrubAuditEventsBatch (userID batchSize : ℤ) : Program Db ℕ := do
  let ids ← select "scrub audit events select: " fun db => batchIds db.auditEvents (AuditEvent.toScrub userID) batchSize
  if ids = [] then pure 0
  else do
    statement "scrub audit events update: " (fun db => (db.auditEvents.rows.filter fun e => e.id ∈ ids).length)
      fun db => { db with auditEvents := db.auditEvents.updateWhere (fun e => e.id ∈ ids) AuditEvent.scrubbed }

def userStatusDisabled : ℤ := 2

def anonymizeUserRow (now userID : ℤ) : Program Db Unit :=
  if userID = 0 then fail "user id is required"
  else execute "anonymize user row: " fun db =>
    { db with users := db.users.modify userID fun u =>
        { u with username := s!"erased_{userID}", displayName := erasedMarker, email := "", remark := "",
                 setting := "", accessToken := none, lurusAccountId := none, status := userStatusDisabled,
                 deletedAt := some now } }

def advanceErasureStep (id : ℤ) (step : ErasureStep) (logsScrubbedDelta : ℕ) : Program Db Unit :=
  execute "" fun db =>
    { db with requests := db.requests.modify id fun r =>
        { r with step := step, lastError := [], logsScrubbed := r.logsScrubbed+logsScrubbedDelta } }

def markErasureCompleted (id : ℤ) : Program Db Unit :=
  execute "" fun db =>
    { db with requests := db.requests.modify id fun r => { r with status := .completed, lastError := [] } }

/-- The message is cut to 512 bytes. -/
def recordErasureError (id : ℤ) (msg : String) : Program Db Unit :=
  execute "" fun db =>
    { db with requests := db.requests.modify id fun r => { r with lastError := msg.toUTF8.toList.take 512 } }

def listPendingErasureRequests (limit : ℕ) : Program Db (List PrivacyErasureRequest) :=
  select "list pending erasure requests: " fun db =>
    ((db.requests.rows.filter fun r => r.status = .pending).insertionSort (·.createdAt ≤ ·.createdAt)).take
      (if limit = 0 then 10 else limit)

def erasureBatchSize : ℤ := 500

def drainIds (b : Program Db (List ℤ)) : Program Db ℕ := drain do
  let ids ← b
  pure ids.length

def tokensStep (pass : Pass) (req : PrivacyErasureRequest) : Program Db ErasureStep := do
  hardDeleteUserTokens req.userId
  hardDeleteUserTOTP (pass.probeFails .userTotps req.id) req.userId
  hardDeleteUserTOTPBackupCodes (pass.probeFails .userTotpBackupCodes req.id) req.userId
  hardDeleteUserSessions req.userId
  hardDeleteUserProjectMembers (pass.probeFails .projectMembers req.id) req.userId
  hardDeleteUserResponseRegistry req.userId
  revokePermissionGrantsForUser pass.now req.userId
  advanceErasureStep req.id .tokensDeleted 0
  pure .tokensDeleted

def mappingsStep (req : PrivacyErasureRequest) : Program Db ErasureStep := do
  hardDeleteUserIdentityMappings req.userId
  advanceErasureStep req.id .mappingsDeleted 0
  pure .mappingsDeleted

def contentStep (req : PrivacyErasureRequest) : Program Db ErasureStep := do
  let _ ← drainIds (hardDeleteChatMessagesBatch req.userId erasureBatchSize)
  let _ ← drainIds (hardDeleteChatSessionsBatch req.userId erasureBatchSize)
  terminaliseOpenMidjourneyForUser req.userId
  let _ ← drainIds (hardDeleteMidjourneyBatch req.userId erasureBatchSize)
  terminaliseOpenTasksForUser req.userId
  scrubTasksForUser req.userId
  scrubQuotaDataUsernameForUser req.userId
  hardDeletePlaygroundPresetsForUser req.userId
  let _ ← drainIds (hardDeleteLogBodiesBatch req.userId erasureBatchSize)
  advanceErasureStep req.id .contentDeleted 0
  pure .contentDeleted

def logsStep (req : PrivacyErasureRequest) : Program Db ErasureStep := do
  let scrubbed ← drainIds (anonymizeLogsBatch req.userId erasureBatchSize)
  advanceErasureStep req.id .logsAnonymized scrubbed
  pure .logsAnonymized

def auditStep (req : PrivacyErasureRequest) : Program Db ErasureStep := do
  let _ ← drain (scrubAuditEventsBatch req.userId erasureBatchSize)
  advanceErasureStep req.id .auditScrubbed 0
  pure .auditScrubbed

def usersStep (pass : Pass) (req : PrivacyErasureRequest) : Program Db Unit := do
  anonymizeUserRow pass.now req.userId
  markErasureCompleted req.id

def atStep (here : ErasureStep) (branch : Program Db ErasureStep) (step : ErasureStep) : Program Db ErasureStep :=
  if step = here then branch else pure step

def executeErasure (pass : Pass) (req : PrivacyErasureRequest) : Program Db Unit := do
  let step ← atStep .none (tokensStep pass req) req.step
  let step ← atStep .tokensDeleted (mappingsStep req) step
  let step ← atStep .mappingsDeleted (contentStep req) step
  let step ← atStep .contentDeleted (logsStep req) step
  let step ← atStep .logsAnonymized (auditStep req) step
  if step = .auditScrubbed then usersStep pass req
  else fail ("unknown erasure step "++step.value.quote++
    ": this build has no cascade branch for it (cursor written by a newer build?)")

/-- One stuck request does not halt the others; its error goes to its row. -/
def executeAll (pass : Pass) : List PrivacyErasureRequest → Program Db Unit
  | [] => pure ()
  | req::rest => do
    match ← attempt (executeErasure pass req) with
    | .ok _ => pure ()
    | .error message => do
      let _ ← attempt (recordErasureError req.id message)
    executeAll pass rest

def runErasurePass (pass : Pass) : Program Db Unit := do
  match ← attempt (listPendingErasureRequests 10) with
  | .ok pending => executeAll pass pending
  | .error _ => pure ()

def step (db : Db) (pass : Pass) : Db := (runErasurePass pass db pass.replies).store

end LurusHub.PrivacyErasure
