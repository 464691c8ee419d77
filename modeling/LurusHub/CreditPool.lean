import LurusHub.KeyedTable
import Mathlib.Algebra.Order.Ring.Int

/-! The tenant credit pool: a row of balance, ceiling and reset schedule for each tenant, and the
append-only ledger of draws. A function that moves a balance is one transaction, from the database
to the committed one or the error that rolled it back. -/
namespace LurusHub.CreditPool

abbrev TenantID := String
abbrev PoolID := ℤ
abbrev EventID := String

/-- Instants in nanoseconds from the Unix epoch, UTC. -/
abbrev Time := ℤ

def FitsInt64 (x : ℤ) : Prop := -2^63 ≤ x ∧ x < 2^63

instance (x : ℤ) : Decidable (FitsInt64 x) := inferInstanceAs (Decidable (_ ∧ _))

/-- Go's `int64` arithmetic keeps the low 64 bits. -/
def wrapInt64 (x : ℤ) : ℤ := x.bmod (2^64)

lemma wrapInt64_fits (x : ℤ) : FitsInt64 (wrapInt64 x) := by
  have h₁ := Int.le_bmod (x:=x) (m:=2^64) (by decide)
  have h₂ := Int.bmod_lt (x:=x) (m:=2^64) (by decide)
  simp only [wrapInt64,FitsInt64]
  omega

variable {x balance delta amount tokenID logID : ℤ} {poolID : PoolID} {db db' : DB}
  {tenantID : TenantID} {reason : String}

lemma wrapInt64_of_fits (h : FitsInt64 x) : wrapInt64 x = x := by
  simp only [FitsInt64] at h
  exact Int.bmod_eq_of_le (by omega) (by omega)

lemma eq_of_wrapInt64_sub (hb : FitsInt64 b) (hc : FitsInt64 c)
    (h : wrapInt64 (a-b) = a-c) : b = c := by
  simp only [FitsInt64] at hb hc
  have hm : ((a-b).bmod (2^64)) % ((2^64 : ℕ) : ℤ) = (a-b) % ((2^64 : ℕ) : ℤ) := Int.bmod_emod
  change (a-b).bmod (2^64) = a-c at h
  omega

inductive ResetPeriod
  | unset | none | daily | weekly | monthly
  | other (name : String)
  deriving DecidableEq, Repr

structure TenantCreditPool where
  id : PoolID
  tenantID : TenantID
  (createdByUserID currentBalance maxBalance : ℤ)
  resetPeriod : ResetPeriod
  lastResetAt : Time
  nextResetAt : Option Time
  alertThresholdPct : ℤ
  alertFiredAt : Option Time
  deriving DecidableEq, Repr

def poolMaxBalanceUnlimited : ℤ := -1

def TenantCreditPool.isUnlimited (p : TenantCreditPool) : Bool := p.maxBalance = poolMaxBalanceUnlimited

def TenantCreditPool.isExhausted (p : TenantCreditPool) : Bool :=
  !p.isUnlimited && p.currentBalance ≤ 0

inductive Direction
  | debit | credit
  deriving DecidableEq, Repr

def poolDrawReasonRelayDebit := "relay_debit"
def poolDrawReasonTopup := "topup"
def poolDrawReasonReset := "reset"
def poolDrawReasonAdjustment := "adjustment"
def poolDrawReasonOverdraft := "relay_overdraft"

structure TenantCreditPoolDraw where
  poolID : PoolID
  tenantID : TenantID
  tokenID : ℤ := 0
  logID : ℤ := 0
  direction : Direction
  amount : ℤ
  reason : String
  actorUserID : ℤ := 0
  origin : Option (TenantID × EventID) := none
  deriving DecidableEq, Repr

inductive FundSource
  | adminTopup | reverted | stranded | reconciled | manuallyClosed
  | other (label : String)
  deriving DecidableEq, Repr

/-- The value a text stored in the `source` column stands for. -/
def FundSource.ofText (label : String) : FundSource :=
  if label = "admin_topup" then .adminTopup
  else if label = "topup_reverted" then .reverted
  else if label = "topup_stranded" then .stranded
  else if label = "topup_reconciled" then .reconciled
  else if label = "topup_manually_closed" then .manuallyClosed
  else .other label

structure CreditPoolFundEvent where
  eventID : EventID
  tenantID : TenantID
  poolID : PoolID
  (amount newBalance : ℤ)
  source : FundSource
  deriving DecidableEq, Repr

/-- The columns of `UNIQUE(tenant_id, event_id)`. -/
abbrev CreditPoolFundEvent.slot (e : CreditPoolFundEvent) : TenantID × EventID := (e.tenantID,e.eventID)

structure DB where
  pools : KeyedTable TenantCreditPool PoolID TenantCreditPool.id
  draws : List TenantCreditPoolDraw
  events : KeyedTable CreditPoolFundEvent (TenantID × EventID) CreditPoolFundEvent.slot

def DB.empty : DB := ⟨.empty,[],.empty⟩

inductive PoolError
  | amountNotPositive (what : String) (amount : ℤ)
  | poolExhausted
  | poolNotFound
  | poolWouldExceedCeiling
  | overdraftPoolMissing (poolID : PoolID)
  | tenantIDRequired
  | eventIDRequired
  | eventIDTooLong (length : ℕ)
  | eventIDHasNUL
  | fundAmountNotPositive (amount : ℤ)
  | fundEventExists
  | fundEventNotStranded
  | strandedTopupManuallyClosed
  | strandedTopupArguments (eventID : EventID) (amount : ℤ)
  | database (text : String)
  deriving DecidableEq, Repr

def poolDrawReasonMaxLen : ℕ := 32

def poolFundEventIDMaxLen : ℕ := 128

/-! Reset schedule. -/

def dayNanos : Time := 86400*1000000000

/-- Gregorian year and month of a day number counted from 1970-01-01. -/
def yearMonthOfDay (day : ℤ) : ℤ × ℤ :=
  let z := day+719468
  let era := z/146097
  let doe := z-era*146097
  let yoe := (doe-doe/1460+doe/36524-doe/146096)/365
  let doy := doe-(365*yoe+yoe/4-yoe/100)
  let mp := (5*doy+2)/153
  let m := if mp < 10 then mp+3 else mp-9
  (yoe+era*400+(if m ≤ 2 then 1 else 0),m)

def firstOfMonth (year month : ℤ) : ℤ :=
  let y := if month ≤ 2 then year-1 else year
  let era := y/400
  let yoe := y-era*400
  let mp := if month > 2 then month-3 else month+9
  let doy := (153*mp+2)/5
  let doe := yoe*365+yoe/4-yoe/100+doy
  era*146097+doe-719468

/-- `time.Weekday`: Sunday is 0; 1970-01-01 was a Thursday. -/
def weekday (day : ℤ) : ℤ := (day+4)%7

/-- The next scheduled reset: next midnight, next Monday, or the first of next month. -/
def nextResetAt (period : ResetPeriod) (now : Time) : Option Time :=
  let day := now/dayNanos
  match period with
  | .daily => some ((day+1)*dayNanos)
  | .weekly =>
    let daysUntilMonday := (8-weekday day)%7
    some ((day+(if daysUntilMonday = 0 then 7 else daysUntilMonday))*dayNanos)
  | .monthly =>
    let (year,month) := yearMonthOfDay day
    some ((if month = 12 then firstOfMonth (year+1) 1 else firstOfMonth year (month+1))*dayNanos)
  | .none | .unset | .other _ => none

-- 2026-12-31 is day 20818, a Thursday; the next Monday is 2027-01-04.
example : nextResetAt .monthly (20818*dayNanos+5) = some (20819*dayNanos) ∧
    nextResetAt .weekly (20818*dayNanos+5) = some (20822*dayNanos) := by decide

/-! Pool transactions. -/

/-- `GetTenantCreditPool`; `none` is `ErrPoolNotFound`, which callers read as "unlimited". -/
def getTenantCreditPool (db : DB) (tenantID : TenantID) : Option TenantCreditPool :=
  db.pools.rows.find? fun p => p.tenantID = tenantID

/-- The ceiling keeps its machine type: a scheduled reset stores it as the balance. -/
def createTenantCreditPool (db : DB) (tenantID : TenantID) (createdByUserID : ℤ) (maxBalance : Int64)
    (resetPeriod : ResetPeriod) (alertThresholdPct : ℤ) (now : Time) : Except PoolError DB :=
  let resetPeriod := if resetPeriod = .unset then .monthly else resetPeriod
  let alertThresholdPct := if alertThresholdPct ≤ 0 ∨ alertThresholdPct > 100 then 80 else alertThresholdPct
  let pool : TenantCreditPool := {
    id := db.pools.rows.length+1
    tenantID, createdByUserID
    currentBalance := 0
    maxBalance := maxBalance.toInt
    resetPeriod
    lastResetAt := now
    nextResetAt := nextResetAt resetPeriod now
    alertThresholdPct
    alertFiredAt := none }
  -- tenant_id carries its own unique index beside the primary key
  if (getTenantCreditPool db tenantID).isSome then
    .error (.database "create tenant credit pool: duplicate key value")
  else match db.pools.insert? pool with
    | none => .error (.database "create tenant credit pool: duplicate key value")
    | some pools => .ok { db with pools }

/-- `bigint` addition: PostgreSQL raises an error where Go would wrap. -/
def addBigint (x y : ℤ) : Except PoolError ℤ :=
  if FitsInt64 (x+y) then .ok (x+y) else .error (.database "bigint out of range")

/-- `UPDATE tenant_credit_pools SET current_balance = current_balance + delta WHERE id = ? AND
guard`; `none` is RowsAffected = 0. -/
def moveBalance (db : DB) (poolID : PoolID) (guard : TenantCreditPool → Except PoolError Bool)
    (delta : ℤ) : Except PoolError (Option (ℤ × DB)) :=
  match db.pools.get? poolID with
  | none => .ok none
  | some pool =>
    match guard pool with
    | .error e => .error e
    | .ok false => .ok none
    | .ok true =>
      match addBigint pool.currentBalance delta with
      | .error e => .error e
      | .ok balance => .ok (some (balance,{ db with
          pools := db.pools.modify poolID fun p => { p with currentBalance := balance } }))

def debitPoolInTx (db : DB) (poolID : PoolID) (tenantID : TenantID) (amount tokenID logID : ℤ) :
    Except PoolError DB :=
  if amount ≤ 0 then .error (.amountNotPositive "debit" amount)
  else match moveBalance db poolID (fun p => .ok (amount ≤ p.currentBalance)) (-amount) with
    | .error e => .error e
    | .ok none => .error .poolExhausted
    | .ok (some (_,db)) => .ok { db with
        draws := db.draws++[{ poolID, tenantID, tokenID, logID, direction := .debit, amount,
                              reason := poolDrawReasonRelayDebit }] }

def debitPool (db : DB) (poolID : PoolID) (tenantID : TenantID) (amount tokenID logID : ℤ) :
    Except PoolError DB :=
  if amount ≤ 0 then .error (.amountNotPositive "debit" amount)
  else debitPoolInTx db poolID tenantID amount tokenID logID

/-- Debits past zero; returns the balance read back after the update. -/
def overdraftDebitPool (db : DB) (poolID : PoolID) (tenantID : TenantID) (amount tokenID logID : ℤ) :
    Except PoolError (DB × ℤ) :=
  if amount ≤ 0 then .error (.amountNotPositive "overdraft debit" amount)
  else match moveBalance db poolID (fun _ => .ok true) (-amount) with
    | .error e => .error e
    | .ok none => .error (.overdraftPoolMissing poolID)
    | .ok (some (balance,db)) => .ok ({ db with
        draws := db.draws++[{ poolID, tenantID, tokenID, logID, direction := .debit, amount,
                              reason := poolDrawReasonOverdraft }] },balance)

/-- The ceiling guard of every credit: `max_balance = -1 OR current_balance + ? <= max_balance`. -/
def underCeiling (amount : ℤ) (p : TenantCreditPool) : Except PoolError Bool :=
  match addBigint p.currentBalance amount with
  | .error e => .error e
  | .ok balance => .ok (p.maxBalance = poolMaxBalanceUnlimited || balance ≤ p.maxBalance)

def topupPoolInTx (db : DB) (poolID : PoolID) (tenantID : TenantID) (amount actorUserID : ℤ)
    (reason : String) (origin : Option (TenantID × EventID)) : Except PoolError (DB × ℤ) :=
  match moveBalance db poolID (underCeiling amount) amount with
  | .error e => .error e
  | .ok none => .error .poolWouldExceedCeiling
  | .ok (some (balance,db)) => .ok ({ db with
      draws := db.draws++[{ poolID, tenantID, direction := .credit, amount, reason, actorUserID,
                            origin }] },balance)

def truncateReason (reason : String) : String :=
  if reason.length > poolDrawReasonMaxLen then String.ofList (reason.toList.take poolDrawReasonMaxLen)
  else reason

/-- What `CreditPoolAdjustment` decides before its transaction: nothing to do without a pool or with
an unlimited one, else the pool to credit. -/
def creditPoolAdjustmentLookup (db : DB) (tenantID : TenantID) (amount : ℤ) :
    Except PoolError (Option PoolID) :=
  if amount ≤ 0 then .error (.amountNotPositive "credit" amount)
  else if tenantID = "" then .error .tenantIDRequired
  else match getTenantCreditPool db tenantID with
    | none => .ok none
    | some pool => if pool.isUnlimited then .ok none else .ok (some pool.id)

def adjustmentReason (reason : String) : String :=
  truncateReason (if reason = "" then poolDrawReasonAdjustment
    else poolDrawReasonAdjustment ++ ":" ++ reason)

/-- The transaction of `CreditPoolAdjustment`, on the pool the lookup found. -/
def creditPoolAdjustmentTx (db : DB) (poolID : PoolID) (tenantID : TenantID) (amount : ℤ)
    (reason : String) : Except PoolError DB :=
  (topupPoolInTx db poolID tenantID amount 0 (adjustmentReason reason) none).map Prod.fst

def duePools (db : DB) (now : Time) : List TenantCreditPool :=
  db.pools.rows.filter fun p =>
    (match p.nextResetAt with | none => false | some t => t ≤ now) &&
    p.resetPeriod != .none && p.resetPeriod != .unset && 0 < p.maxBalance

/-- The credit a reset records, computed by `ResetDuePools` from the row it listed. -/
def resetDelta (listed : TenantCreditPool) : ℤ := wrapInt64 (listed.maxBalance-listed.currentBalance)

/-- The compare-and-swap `next_reset_at = ?`; NULL equals nothing. -/
def SwapWins (pool listed : TenantCreditPool) : Prop :=
  pool.nextResetAt.isSome ∧ pool.nextResetAt = listed.nextResetAt
  deriving Decidable

/-- `resetOnePoolInTx`: compare-and-swap on `next_reset_at`, then the draw. `none` means
the swap was lost. -/
def resetOnePoolInTx (db : DB) (listed : TenantCreditPool) (delta : ℤ) (now : Time)
    (next : Option Time) : Option DB :=
  match db.pools.get? listed.id with
  | none => none
  | some pool =>
    if SwapWins pool listed then
      some { db with
        pools := db.pools.modify listed.id fun p => { p with
          currentBalance := listed.maxBalance
          lastResetAt := now
          nextResetAt := next
          alertFiredAt := none }
        draws := db.draws++[{ poolID := listed.id, tenantID := listed.tenantID,
                              direction := .credit, amount := delta, reason := poolDrawReasonReset }] }
    else none

/-! Ledger reading. -/

def TenantCreditPoolDraw.signed (d : TenantCreditPoolDraw) : ℤ :=
  match d.direction with
  | .credit => d.amount
  | .debit => -d.amount

def ledgerBalance (draws : List TenantCreditPoolDraw) (poolID : PoolID) : ℤ :=
  ((draws.filter fun d => d.poolID = poolID && d.direction = .credit).map (·.amount)).sum -
    ((draws.filter fun d => d.poolID = poolID && d.direction = .debit).map (·.amount)).sum

lemma ledgerBalance_append_one (draws : List TenantCreditPoolDraw) (d : TenantCreditPoolDraw)
    (pid : PoolID) : ledgerBalance (draws++[d]) pid =
      ledgerBalance draws pid + if d.poolID = pid then d.signed else 0 := by
  by_cases hp : d.poolID = pid
  · cases hd : d.direction <;>
      simp [ledgerBalance,hp,hd,TenantCreditPoolDraw.signed] <;> omega
  · simp [ledgerBalance,hp]

lemma ledgerBalance_of_absent
    (h : ∀ d ∈ draws, d.poolID ≠ pid) : ledgerBalance draws pid = 0 := by
  have hnil : ∀ q : TenantCreditPoolDraw → Bool,
      draws.filter (fun d => decide (d.poolID = pid) && q d) = [] := by
    intro q
    apply List.filter_eq_nil_iff.mpr
    intro d hd
    simp [h d hd]
  simp [ledgerBalance,hnil]

lemma getTenantCreditPool_modify (db : DB) (pid : PoolID) (tid : TenantID)
    (f : TenantCreditPool → TenantCreditPool) (hid : ∀ p, (f p).id = p.id) (htenant : ∀ p, (f p).tenantID = p.tenantID) :
    getTenantCreditPool { db with pools := db.pools.modify pid f hid } tid =
      (getTenantCreditPool db tid).map fun p => if p.id = pid then f p else p := by
  have hsame : ((fun p : TenantCreditPool => decide (p.tenantID = tid)) ∘ fun p : TenantCreditPool =>
      if p.id = pid then f p else p) = fun p => decide (p.tenantID = tid) := by
    funext p
    by_cases hp : p.id = pid <;> simp [hp,htenant]
  simp only [getTenantCreditPool,KeyedTable.modify,KeyedTable.updateWhere,List.find?_map,decide_eq_true_eq,hsame]

/-! What each committed transaction did, once for all later invariants. -/

structure Moved (db db' : DB) (poolID : PoolID) (delta : ℤ) (draw : TenantCreditPoolDraw) : Prop where
  pools : ∃ pool, db.pools.get? poolID = some pool ∧ FitsInt64 (pool.currentBalance+delta) ∧
    db'.pools = db.pools.modify poolID fun p => { p with currentBalance := pool.currentBalance+delta }
  draws : db'.draws = db.draws++[draw]
  target : draw.poolID = poolID
  signed : draw.signed = delta

namespace Moved
variable {db db' : DB} {poolID : PoolID} {delta : ℤ} {draw : TenantCreditPoolDraw}

section
variable (h : Moved db db' poolID delta draw)
include h

lemma get?_pools (k : PoolID) : db'.pools.get? k = if k = poolID
      then (db.pools.get? k).map fun p => { p with currentBalance := p.currentBalance+delta }
      else db.pools.get? k := by
  obtain ⟨pool,hpool,_,heq⟩ := h.pools
  rw [heq,KeyedTable.get?_modify]
  split
  · next hk => subst hk; simp [hpool]
  · rfl

lemma getTenantCreditPool_some
    (hpool : getTenantCreditPool db tenantID = some pool) (hid : pool.id = poolID) :
    getTenantCreditPool db' tenantID = some { pool with currentBalance := pool.currentBalance+delta } := by
  obtain ⟨target,htar,_,heq⟩ := h.pools
  have hmem := KeyedTable.get?_of_mem (List.mem_of_find?_eq_some hpool)
  obtain rfl : pool = target := by
    rw [hid,htar] at hmem
    exact (Option.some.inj hmem).symm
  have hmodi := getTenantCreditPool_modify db poolID tenantID
    (fun p => { p with currentBalance := pool.currentBalance+delta }) (fun _ => rfl) (fun _ => rfl)
  rw [← heq,hpool] at hmodi
  simpa [getTenantCreditPool,hid] using hmodi

lemma ledger (k : PoolID) :
    ledgerBalance db'.draws k = ledgerBalance db.draws k + if poolID = k then delta else 0 := by
  rw [h.draws,ledgerBalance_append_one,h.target,h.signed]

end

end Moved

structure Debited (db db' : DB) (poolID : PoolID) (amount : ℤ) : Prop where
  positive : 0 < amount
  moved : ∃ draw, Moved db db' poolID (-amount) draw ∧ draw.direction = .debit

structure Credited (db db' : DB) (poolID : PoolID) (amount : ℤ)
    (origin : Option (TenantID × EventID)) : Prop where
  moved : ∃ draw, Moved db db' poolID amount draw ∧ draw.direction = .credit ∧ draw.origin = origin
  ceiling : ∀ pool, db.pools.get? poolID = some pool →
    pool.maxBalance = poolMaxBalanceUnlimited ∨ pool.currentBalance+amount ≤ pool.maxBalance

lemma addBigint_ok (h : addBigint x y = .ok z) : FitsInt64 (x+y) ∧ z = x+y := by
  unfold addBigint at h
  split_ifs at h with hfit
  exact ⟨hfit,(Except.ok.inj h).symm⟩

lemma moveBalance_some {guard : TenantCreditPool → Except PoolError Bool}
    (h : moveBalance db pid guard delta = .ok (some (balance,db'))) :
    ∃ pool, db.pools.get? pid = some pool ∧ guard pool = .ok true ∧
      FitsInt64 (pool.currentBalance+delta) ∧ balance = pool.currentBalance+delta ∧
      db' = { db with pools := db.pools.modify pid fun p =>
        { p with currentBalance := pool.currentBalance+delta } } := by
  unfold moveBalance at h
  split at h
  · simp at h
  · next pool hpool =>
    split at h
    · simp at h
    · simp at h
    · next hguard =>
      split at h
      · simp at h
      · next hadd =>
        obtain ⟨hfit,rfl⟩ := addBigint_ok hadd
        obtain ⟨rfl,rfl⟩ := h
        exact ⟨pool,hpool,hguard,hfit,rfl,rfl⟩

lemma addBigint_error (h : addBigint x y = .error e) : e = .database "bigint out of range" := by
  unfold addBigint at h
  split_ifs at h
  exact (Except.error.inj h).symm

lemma underCeiling_true (h : underCeiling amount pool = .ok true) :
    pool.maxBalance = poolMaxBalanceUnlimited ∨ pool.currentBalance+amount ≤ pool.maxBalance := by
  unfold underCeiling at h
  split at h
  · simp at h
  · next hadd =>
    obtain ⟨_,rfl⟩ := addBigint_ok hadd
    simpa using h

lemma debitPoolInTx_ok (h : debitPoolInTx db pid tenantID amount tokenID logID = .ok db') :
    db'.events = db.events ∧ Debited db db' pid amount := by
  unfold debitPoolInTx at h
  split_ifs at h with hpos
  split at h
  · simp at h
  · simp at h
  · next hm =>
    obtain ⟨pool,hq,_,hfit,_,rfl⟩ := moveBalance_some hm
    simp only [Except.ok.injEq] at h
    subst h
    exact ⟨rfl,by omega,_,⟨⟨pool,hq,hfit,rfl⟩,rfl,rfl,rfl⟩,rfl⟩

lemma debitPool_ok (h : debitPool db pid tenantID amount tokenID logID = .ok db') :
    db'.events = db.events ∧ Debited db db' pid amount := by
  unfold debitPool at h
  split_ifs at h
  exact debitPoolInTx_ok h

lemma overdraftDebitPool_ok
    (h : overdraftDebitPool db pid tenantID amount tokenID logID = .ok (db',balance)) :
    db'.events = db.events ∧ Debited db db' pid amount := by
  unfold overdraftDebitPool at h
  split_ifs at h with hpos
  split at h
  · simp at h
  · simp at h
  · next hm =>
    obtain ⟨pool,hq,_,hfit,rfl,rfl⟩ := moveBalance_some hm
    obtain ⟨rfl,rfl⟩ := h
    exact ⟨rfl,by omega,_,⟨⟨pool,hq,hfit,rfl⟩,rfl,rfl,rfl⟩,rfl⟩

lemma topupPoolInTx_ok
    (h : topupPoolInTx db pid tenantID amount actorUserID reason origin = .ok (db',balance)) :
    db'.events = db.events ∧ Credited db db' pid amount origin := by
  unfold topupPoolInTx at h
  split at h
  · simp at h
  · simp at h
  · next hm =>
    obtain ⟨pool,hq,hg,hfit,rfl,rfl⟩ := moveBalance_some hm
    obtain ⟨rfl,rfl⟩ := h
    refine ⟨rfl,⟨_,⟨⟨pool,hq,hfit,rfl⟩,rfl,rfl,rfl⟩,rfl,rfl⟩,?_⟩
    intro p hp
    obtain rfl : pool = p := Option.some.inj (hq.symm.trans hp)
    exact underCeiling_true hg

theorem topupPoolInTx_error {actorUserID : ℤ} {origin : Option (TenantID × EventID)} {e : PoolError}
    (h : topupPoolInTx db poolID tenantID amount actorUserID reason origin = .error e) :
    e = .poolWouldExceedCeiling ∨ e = .database "bigint out of range" := by
  unfold topupPoolInTx at h
  split at h
  · next e' hm =>
    obtain rfl : e' = e := Except.error.inj h
    unfold moveBalance at hm
    split at hm
    · simp at hm
    · split at hm
      · next hg =>
        unfold underCeiling at hg
        split at hg
        · next hadd =>
          rw [← Except.error.inj hm,← Except.error.inj hg]
          exact .inr (addBigint_error hadd)
        · simp at hg
      · simp at hm
      · split at hm
        · next hadd =>
          rw [← Except.error.inj hm]
          exact .inr (addBigint_error hadd)
        · simp at hm
  · exact .inl (Except.error.inj h).symm
  · simp at h

lemma creditPoolAdjustmentTx_ok
    (h : creditPoolAdjustmentTx db pid tid amount reason = .ok db') :
    db'.events = db.events ∧ Credited db db' pid amount none := by
  unfold creditPoolAdjustmentTx at h
  cases ht : topupPoolInTx db pid tid amount 0 (adjustmentReason reason) none with
  | error e => simp [ht,Except.map] at h
  | ok r =>
    simp only [ht,Except.map,Except.ok.injEq] at h
    subst h
    exact topupPoolInTx_ok ht

lemma createTenantCreditPool_ok
    (h : createTenantCreditPool db tenantID createdByUserID maxBalance resetPeriod alertThresholdPct now =
      .ok db') : ∃ pool pools, db.pools.insert? pool = some pools ∧ db' = { db with pools } ∧
      pool.currentBalance = 0 ∧ pool.maxBalance = maxBalance.toInt ∧ pool.tenantID = tenantID := by
  unfold createTenantCreditPool at h
  extract_lets period pct pool at h
  split at h
  · simp at h
  · split at h
    · simp at h
    · next pools hins => exact ⟨pool,pools,hins,(Except.ok.inj h).symm,rfl,rfl,rfl⟩

lemma resetOnePoolInTx_some (h : resetOnePoolInTx db listed delta now next = some db') :
    (∃ pool, db.pools.get? listed.id = some pool ∧ SwapWins pool listed) ∧ db'.events = db.events ∧
    db'.pools = (db.pools.modify listed.id fun p => { p with
      currentBalance := listed.maxBalance, lastResetAt := now, nextResetAt := next, alertFiredAt := none }) ∧
    ∃ draw, db'.draws = db.draws++[draw] ∧ draw.poolID = listed.id ∧ draw.signed = delta ∧
      draw.origin = none := by
  unfold resetOnePoolInTx at h
  split at h
  · simp at h
  · next pool hq =>
    split_ifs at h with hswap
    simp only [Option.some.injEq] at h
    subst h
    exact ⟨⟨pool,hq,hswap⟩,rfl,rfl,_,rfl,rfl,rfl,rfl⟩

lemma resetOnePoolInTx_none (h : resetOnePoolInTx db listed delta now next = none) :
    ∀ pool, db.pools.get? listed.id = some pool → ¬ SwapWins pool listed := by
  intro pool hpool hswap
  simp [resetOnePoolInTx,hpool,hswap] at h

end LurusHub.CreditPool
