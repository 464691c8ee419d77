import LurusHub.PostConsume
import Mathlib.Data.List.Perm.Basic

/-! What an async task moves besides its row: the charge of a submission, the refund of a failed
task and the re-settlement of a finished video task. The tasks table carries no key, so a hand-back
finds the payer in the submission's consume row, by user, channel and amount. -/
namespace LurusHub.AsyncTask
open CreditPool QuotaLedger PreConsume PostConsume

inductive LogType
  | consume
  | system
  deriving DecidableEq

structure Log where
  id : ℕ
  logType : LogType
  (userID channelID tokenID : ℕ)
  (quota createdAt : ℤ)
  ofTask : Bool := false
  deriving DecidableEq

structure Books where
  ledger : Ledger
  platform : List PlatformEvent := []
  usedQuota : ℕ → ℤ := fun _ => 0
  requestCount : ℕ → ℤ := fun _ => 0
  channelUsedQuota : ℕ → ℤ := fun _ => 0
  logs : KeyedTable Log ℕ Log.id := .empty
  nextLogID : ℕ := 1

namespace Books

def addLog (b : Books) (l : Log) : Books :=
  { b with logs := b.logs.put { l with id := b.nextLogID }, nextLogID := b.nextLogID+1 }

def updateUserUsedQuota (b : Books) (userID : ℕ) (quota : ℤ) : Books :=
  { b with usedQuota := Function.update b.usedQuota userID (b.usedQuota userID+quota) }

def updateUserUsedQuotaAndRequestCount (b : Books) (userID : ℕ) (quota : ℤ) : Books :=
  { b.updateUserUsedQuota userID quota with requestCount := Function.update b.requestCount userID (b.requestCount userID+1) }

def updateChannelUsedQuota (b : Books) (channelID : ℕ) (quota : ℤ) : Books :=
  { b with channelUsedQuota := Function.update b.channelUsedQuota channelID (b.channelUsedQuota channelID+quota) }

def recordLog (b : Books) (userID : ℕ) (now : ℤ) : Books := b.addLog ⟨0,.system,userID,0,0,0,now,false⟩

def postConsumeQuota (b : Books) (env : PostEnv) (info : RelayInfo) (quota : ℤ) : Books × Option LedgerError :=
  let (w,err) := PostConsume.postConsumeQuota env quota 0 ⟨b.ledger,info,b.platform⟩
  ({ b with ledger := w.ledger, platform := w.platform },err)

end Books

/-! The charge. -/

/-- The deferred block of `RelayTaskSubmit`; a failed charge is only logged. `logs` is whether consume logging is on. -/
def chargeSubmission (env : PostEnv) (logs : Bool) (info : RelayInfo) (channelID : ℕ) (quota now : ℤ) (b : Books) : Books :=
  let b := (b.postConsumeQuota env info quota).1
  if quota = 0 then b
  else
    let b := if logs then b.addLog ⟨0,.consume,info.userId,channelID,info.tokenId,quota,now,true⟩ else b
    (b.updateUserUsedQuotaAndRequestCount info.userId quota).updateChannelUsedQuota channelID quota

/-! The payer. -/

structure TaskChargeLedger where
  (logID tokenID : ℕ)
  tenantID : TenantID
  deriving DecidableEq

def taskChargeLookback : ℤ := 30*24*60*60
def taskChargeCandidates : ℕ := 50

/-- The rows a charge of this shape may have written, the newest first. -/
def chargeRows (b : Books) (userID channelID : ℕ) (quota since : ℤ) : List Log :=
  ((b.logs.rows.filter fun l => l.logType = .consume && l.userID = userID && l.channelID = channelID && l.quota = quota &&
    decide (0 < l.tokenID) && decide (since ≤ l.createdAt)).reverse).take taskChargeCandidates

/-- Resolved only if all candidates name one key, and the key still exists. -/
def resolveTaskChargeLedger (b : Books) (userID channelID : ℕ) (quota since : ℤ) : Option TaskChargeLedger :=
  if userID = 0 ∨ quota ≤ 0 then none
  else match chargeRows b userID channelID quota since with
    | [] => none
    | row::rows =>
      if rows.all (·.tokenID = row.tokenID) then (b.ledger.token? row.tokenID).map fun tok => ⟨row.id,row.tokenID,tok.tenantID⟩
      else none

/-! Handing back. -/

def creditPoolAdjustment (pools : DB) (tenantID : TenantID) (amount : ℤ) (reason : String) : Except PoolError DB :=
  match creditPoolAdjustmentLookup pools tenantID amount with
  | .error e => .error e
  | .ok none => .ok pools
  | .ok (some poolID) => creditPoolAdjustmentTx pools poolID tenantID amount reason

/-- Key and pool; a leg that does not land is only logged. -/
def creditTaskLedgers (env : PostEnv) (ledger : TaskChargeLedger) (quota : ℤ) (reason : String) (b : Books) : Books :=
  if quota ≤ 0 then b
  else
    let l := match increaseTokenQuota env.batchUpdateEnabled env.tokenWriteFails b.ledger ledger.tokenID quota with
      | .ok l => l
      | .error _ => b.ledger
    let l := if ledger.tenantID = "" then l
      else match attempt env.creditFails (creditPoolAdjustment l.pools ledger.tenantID quota reason) with
        | .ok pools => { l with pools }
        | .error _ => l
    { b with ledger := l }

/-- Returns whether the balance was restored. -/
def refundTaskCharge (env : PostEnv) (userID channelID : ℕ) (quota now : ℤ) (ledger : Option TaskChargeLedger) (reason : String)
    (b : Books) : Books × Bool :=
  if quota = 0 then (b,false)
  else match increaseUserQuota env.batchUpdateEnabled env.userWriteFails b.ledger userID quota with
    | .error _ => (b.recordLog userID now,false)
    | .ok l =>
      let b := (({ b with ledger := l } : Books).updateUserUsedQuota userID (-quota)).updateChannelUsedQuota channelID (-quota)
      let b := match ledger with
        | none => b
        | some ledger => creditTaskLedgers env ledger quota reason b
      (b.recordLog userID now,true)

def refundTaskQuota (env : PostEnv) (userID channelID : ℕ) (quota now : ℤ) (b : Books) : Books × Bool :=
  if quota = 0 then (b,false)
  else refundTaskCharge env userID channelID quota now
    (resolveTaskChargeLedger b userID channelID quota (now-taskChargeLookback)) "task_refund" b

/-! Re-settling a video task. -/

def videoResettleSlack : ℤ := 10*60

/-- Returns whether the row was rewritten. -/
def rewriteTaskConsumeRow (ledger : Option TaskChargeLedger) (actualQuota : ℤ) (b : Books) : Books × Bool :=
  match ledger with
  | none => (b,false)
  | some ledger =>
    if (b.logs.get? ledger.logID).isSome then
      ({ b with logs := b.logs.modify ledger.logID fun l => { l with quota := actualQuota } },true)
    else (b,false)

def resettleSince (submitTime now : ℤ) : ℤ := if submitTime ≤ 0 then now-taskChargeLookback else submitTime-videoResettleSlack

/-- The difference on the balance, and on key and pool where the payer is known. Returns whether the money moved. -/
def resettleMoney (env : PostEnv) (userID channelID : ℕ) (ledger : Option TaskChargeLedger)
    (quotaDelta now : ℤ) (b : Books) : Books × Bool :=
  if 0 < quotaDelta then
    match b.postConsumeQuota env ⟨userID,(ledger.map (·.tokenID)).getD 0,false,false,0,0,false,false,0,0⟩ quotaDelta with
    | (b,none) => ((b.updateUserUsedQuotaAndRequestCount userID quotaDelta).updateChannelUsedQuota channelID quotaDelta,true)
    | (b,some _) => (b,false)
  else refundTaskCharge env userID channelID (-quotaDelta) now ledger "video_resettle" b

/-- `estimate` is the quota that the task's row carries. Returns whether the money moved. -/
def resettleVideoTask (env : PostEnv) (userID channelID : ℕ)
    (submitTime estimate actualQuota now : ℤ) (b : Books) : Books × Bool :=
  let quotaDelta := actualQuota-estimate
  if quotaDelta = 0 then (b,false)
  else
    let ledger := resolveTaskChargeLedger b userID channelID estimate (resettleSince submitTime now)
    let (b,moved) := resettleMoney env userID channelID ledger quotaDelta now b
    if moved then
      let (b,rewritten) := rewriteTaskConsumeRow ledger actualQuota b
      (if !rewritten && decide (0 < quotaDelta) then b.recordLog userID now else b,true)
    else (b,false)

end LurusHub.AsyncTask
