import LurusHub.PreConsume

/-! Settlement of a relay request. `PostConsumeQuota` moves the difference to the freeze on user and
token, the whole cost on the pool, and then the platform wallet; a failed token write hands the
other legs back. `ReturnPreConsumedQuota` is for a request that was never served. -/
namespace LurusHub.PostConsume
open CreditPool QuotaLedger PreConsume

structure PostEnv where
  localLedgerAdvisory : Bool := false
  batchUpdateEnabled : Bool := false
  userWriteFails : Bool := false
  tokenLookupFails : Bool := false
  poolLookupFails : Bool := false
  poolDebitFails : Bool := false
  overdraftFails : Bool := false
  tokenWriteFails : Bool := false
  compensationFails : Bool := false
  creditLookupFails : Bool := false
  creditFails : Bool := false
  settle : Delivery := .live
  release : Delivery := .live
  legacyDebit : Delivery := .live

def attempt {α : Type} (fails : Bool) (r : Except PoolError α) : Except PoolError α :=
  if fails then .error (.database "") else r

/-- None for a token without a tenant, a tenant without a pool row, or an unlimited pool. -/
def poolOf (l : Ledger) (tokenID : ℕ) : Option (TenantID × TenantCreditPool) :=
  match l.token? tokenID with
  | none => none
  | some tok =>
    if tok.tenantID = "" then none
    else match getTenantCreditPool l.pools tok.tenantID with
      | none => none
      | some pool => if pool.isUnlimited then none else some (tok.tenantID,pool)

/-- Returns whether a debit was recorded; an exhausted pool is overdrawn. -/
def debitTenantPool (env : PostEnv) (tokenID : ℕ) (l : Ledger) (quota : ℤ) : Ledger × Bool :=
  if env.tokenLookupFails || env.poolLookupFails then (l,false)
  else match poolOf l tokenID with
    | none => (l,false)
    | some (tenantID,pool) =>
      match attempt env.poolDebitFails (debitPool l.pools pool.id tenantID quota tokenID 0) with
      | .ok pools => ({ l with pools },true)
      | .error .poolExhausted =>
        match attempt env.overdraftFails (overdraftDebitPool l.pools pool.id tenantID quota tokenID 0) with
        | .ok (pools,_) => ({ l with pools },true)
        | .error _ => (l,false)
      | .error _ => (l,false)

/-- Hands a recorded pool debit back; a failed hand-back is only logged. -/
def creditTenantPool (env : PostEnv) (tokenID : ℕ) (l : Ledger) (quota : ℤ) (reason : String) : Ledger :=
  match (if env.creditLookupFails then none else l.token? tokenID) with
  | none => l
  | some tok =>
    if tok.tenantID = "" then l
    else match creditPoolAdjustmentLookup l.pools tok.tenantID quota with
      | .error _ | .ok none => l
      | .ok (some poolID) =>
        match attempt env.creditFails (creditPoolAdjustmentTx l.pools poolID tok.tenantID quota reason) with
        | .ok pools => { l with pools }
        | .error _ => l

/-- A signed settlement: debit a positive difference, credit back the rest. -/
def settleUser (batch fails : Bool) (l : Ledger) (userId : ℕ) (quota : ℤ) : Except LedgerError Ledger :=
  if quota > 0 then decreaseUserQuota batch fails l userId quota
  else increaseUserQuota batch fails l userId (-quota)

def settleToken (batch fails : Bool) (l : Ledger) (tokenId : ℕ) (quota : ℤ) : Except LedgerError Ledger :=
  if quota > 0 then decreaseTokenQuota batch fails l tokenId quota
  else increaseTokenQuota batch fails l tokenId (-quota)

def compensateUser (batch fails : Bool) (l : Ledger) (userId : ℕ) (quota : ℤ) : Ledger :=
  match (if quota > 0 then increaseUserQuota batch fails l userId quota
    else decreaseUserQuota batch fails l userId (-quota)) with
  | .ok l => l
  | .error _ => l

/-- Settles the hold, or parks the settle, and clears its id either way. -/
def settleOrPark (env : PostEnv) (totalQuota : ℤ) (w : World) : World :=
  { w with
    info := { w.info with platformPreAuthID := 0 }
    platform := w.platform++[.settle w.info.platformPreAuthID totalQuota env.settle] }

def settlePlatformWallet (env : PostEnv) (totalQuota preConsumedQuota : ℤ) (consistent advisory : Bool)
    (w : World) : World :=
  if w.info.identityAccountID > 0 ∧ totalQuota > 0 then
    if w.info.platformPreAuthID > 0 then
      if !consistent && !advisory then abandonPreAuth env.release w
      else settleOrPark env totalQuota w
    else if consistent || advisory then
      { w with platform := w.platform++[.legacyDebit totalQuota env.legacyDebit] }
    else w
  else if w.info.identityAccountID > 0 ∧ totalQuota ≤ 0 ∧ preConsumedQuota > 0 ∧ w.info.platformPreAuthID > 0 then
    abandonPreAuth env.release w
  else w

def shadowLedger (env : PostEnv) (info : RelayInfo) : Bool :=
  info.platformGoverned && (env.localLedgerAdvisory || info.walletAuthoritative)

/-- Phase 1. In enforcing mode a failed user write ends the settlement. -/
def userPhase (env : PostEnv) (info : RelayInfo) (quota : ℤ) (l : Ledger) : Except LedgerError Ledger :=
  if info.userId > 0 then
    match settleUser env.batchUpdateEnabled env.userWriteFails l info.userId quota with
    | .ok l => .ok l
    | .error e => if shadowLedger env info then .ok l else .error e
  else .ok l

/-- Phase 2.5: the pool pays the whole cost, the freeze never touched it. -/
def poolPhase (env : PostEnv) (info : RelayInfo) (poolDebit : ℤ) (l : Ledger) : Ledger × Bool :=
  if poolDebit > 0 ∧ info.tokenId > 0 then debitTenantPool env info.tokenId l poolDebit else (l,false)

/-- Phase 3, with the compensation of the other legs when the token write fails. -/
def tokenPhase (env : PostEnv) (info : RelayInfo) (quota poolDebit : ℤ) (poolDebited : Bool) (l : Ledger) :
    Ledger × Option LedgerError :=
  if !info.isPlayground && info.tokenId > 0 then
    match settleToken env.batchUpdateEnabled env.tokenWriteFails l info.tokenId quota with
    | .ok l => (l,none)
    | .error e =>
      let l := if info.userId > 0 then
        compensateUser env.batchUpdateEnabled env.compensationFails l info.userId quota else l
      let l := if poolDebited then creditTenantPool env info.tokenId l poolDebit "token_write" else l
      (l,some e)
  else (l,none)

def postConsumeQuota (env : PostEnv) (quota preConsumedQuota : ℤ) (w : World) : World × Option LedgerError :=
  match userPhase env w.info quota w.ledger with
  | .error e => (w,some e)
  | .ok l =>
    let (l,poolDebited) := poolPhase env w.info (quota+preConsumedQuota) l
    let (ledger,err) := tokenPhase env w.info quota (quota+preConsumedQuota) poolDebited l
    let advisory := shadowLedger env w.info
    (settlePlatformWallet env (quota+preConsumedQuota) preConsumedQuota err.isNone advisory { w with ledger },
      if advisory then none else err)

/-- Refunds the freeze and releases the hold; a failed refund is only logged. -/
def returnPreConsumedQuota (env : PostEnv) (w : World) : World :=
  let frozen := w.info.finalPreConsumedQuota
  let w := if frozen ≠ 0 then (postConsumeQuota env (-frozen) 0 w).1 else w
  abandonPreAuth env.release w

section
variable {id : ℕ}

lemma settleUser_eq (id : ℕ) : settleUser batch fails l id quota = addUserQuota batch fails l id (-quota) := by
  unfold settleUser
  split
  · exact if_neg (by omega)
  · exact if_neg (by omega)

lemma settleUser_ok (h : settleUser batch fails l id quota = .ok l') :
    l'.balances = l.balances.chargeUser id quota := by
  simpa using addUserQuota_ok ((settleUser_eq id).symm.trans h)

lemma settleUser_error_iff (batch fails : Bool) (l : Ledger) (id : ℕ) (quota : ℤ) :
    (∃ e, settleUser batch fails l id quota = .error e) ↔ batch = false ∧ fails := by
  rw [settleUser_eq]
  cases batch <;> cases fails <;> simp [addUserQuota]

lemma settleToken_eq (id : ℕ) : settleToken batch fails l id quota = addTokenQuota batch fails l id (-quota) := by
  unfold settleToken
  split
  · exact if_neg (by omega)
  · exact if_neg (by omega)

lemma settleToken_ok (h : settleToken batch fails l id quota = .ok l') :
    l'.balances = l.balances.chargeToken id quota := by
  simpa using addTokenQuota_ok ((settleToken_eq id).symm.trans h)

lemma settleToken_error_iff (batch fails : Bool) (l : Ledger) (id : ℕ) (quota : ℤ) :
    (∃ e, settleToken batch fails l id quota = .error e) ↔ batch = false ∧ fails := by
  rw [settleToken_eq]
  cases batch <;> cases fails <;> simp [addTokenQuota]

end

def StopsAtUser (env : PostEnv) (info : RelayInfo) : Prop :=
  0 < info.userId ∧ env.batchUpdateEnabled = false ∧ env.userWriteFails = true ∧ shadowLedger env info = false

lemma userPhase_error_iff (env : PostEnv) (info : RelayInfo) (quota : ℤ) (l : Ledger) :
    (∃ e, userPhase env info quota l = .error e) ↔ StopsAtUser env info := by
  have hwri := settleUser_error_iff env.batchUpdateEnabled env.userWriteFails l info.userId quota
  unfold userPhase StopsAtUser
  by_cases huser : info.userId > 0
  · cases hs : settleUser env.batchUpdateEnabled env.userWriteFails l info.userId quota with
    | ok l' =>
      have hno : ¬ (env.batchUpdateEnabled = false ∧ env.userWriteFails) := by
        rw [← hwri,hs]
        simp
      simp only [huser]
      constructor
      · rintro ⟨_,h⟩
        cases h
      · exact fun h => absurd ⟨h.2.1,h.2.2.1⟩ hno
    | error e =>
      have hfails := hwri.1 ⟨e,hs⟩
      cases hsha : shadowLedger env info <;> simp [huser,hfails]
  · simp [huser]

/-! The pool leg. -/

lemma poolOf_eq_some (h : poolOf l tkn = some (tid,pool)) :
    ∃ tok, l.token? tkn = some tok ∧ tok.tenantID = tid ∧ tid ≠ "" ∧
      getTenantCreditPool l.pools tid = some pool ∧ pool.isUnlimited = false := by
  unfold poolOf at h
  split at h
  · cases h
  · next tok htok =>
    split_ifs at h with htenant
    split at h
    · cases h
    · next hfind =>
      split_ifs at h with hunl
      obtain ⟨rfl,rfl⟩ := h
      exact ⟨tok,htok,rfl,htenant,hfind,Bool.eq_false_iff.mpr hunl⟩

lemma poolOf_some
    (h : poolOf l tokenID = some (tenantID,pool)) : l.pools.pools.get? pool.id = some pool := by
  obtain ⟨_,_,_,_,hfind,_⟩ := poolOf_eq_some h
  exact KeyedTable.get?_of_mem (List.mem_of_find?_eq_some hfind)

lemma poolOf_congr (htenant : l.balances.tenant = l'.balances.tenant) (hpools : l.pools = l'.pools)
    (tokenID : ℕ) : poolOf l tokenID = poolOf l' tokenID := by
  have hid := congrFun htenant tokenID
  simp only [Ledger.balances] at hid
  cases ht : l.token? tokenID <;> cases ht' : l'.token? tokenID <;> simp [ht,ht'] at hid <;>
    simp [poolOf,ht,ht',hid,hpools]

theorem debit_or_overdraft (tid : TenantID) (tok : ℤ)
    (hpool : db.pools.get? pool.id = some pool) (hpos : 0 < quota) (hfits : FitsInt64 (pool.currentBalance-quota)) :
    (∃ db', debitPool db pool.id tid quota tok 0 = .ok db') ∨
    (debitPool db pool.id tid quota tok 0 = .error .poolExhausted ∧
      ∃ r, overdraftDebitPool db pool.id tid quota tok 0 = .ok r) := by
  have hneg : ¬ quota ≤ 0 := by omega
  have hadd : addBigint pool.currentBalance (-quota) = .ok (pool.currentBalance-quota) := by
    rw [addBigint,← Int.sub_eq_add_neg,if_pos hfits]
  by_cases henough : quota ≤ pool.currentBalance
  · simp [debitPool,debitPoolInTx,moveBalance,hpool,hneg,henough,hadd]
  · simp [debitPool,debitPoolInTx,overdraftDebitPool,moveBalance,hpool,hneg,henough,hadd]

lemma debitTenantPool_debited (hlookup : env.tokenLookupFails = false ∧ env.poolLookupFails = false)
    (hwri : env.poolDebitFails = false ∧ env.overdraftFails = false)
    (hpool : poolOf l tok = some (tid,pool)) (hpos : 0 < quota)
    (hfits : FitsInt64 (pool.currentBalance-quota)) :
    ∃ pools, (debitTenantPool env tok l quota).1 = { l with pools } ∧ Debited l.pools pools pool.id quota := by
  have hdebit := debit_or_overdraft tid tok (poolOf_some hpool) hpos hfits
  simp only [debitTenantPool,hlookup,hpool,attempt,hwri]
  rcases hdebit with ⟨db',hok⟩ | ⟨hexh,⟨db',balance⟩,hover⟩
  · exact ⟨db',by simp [hok],(debitPool_ok hok).2⟩
  · exact ⟨db',by simp [hexh,hover],(overdraftDebitPool_ok hover).2⟩

end LurusHub.PostConsume
