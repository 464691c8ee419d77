import LurusHub.SettledCost

/-! A settlement whose token write fails. The pool debit is handed back when one was recorded, but the user
is credited whether or not the user's own write landed. -/
namespace LurusHub.PostConsumeCompensation
open CreditPool QuotaLedger PreConsume PostConsume SettledCost Balances Option

structure TokenWriteFails (env : PostEnv) (info : RelayInfo) : Prop where
  reached : ¬ StopsAtUser env info
  charged : info.isPlayground = false ∧ 0 < info.tokenId
  fails : env.batchUpdateEnabled = false ∧ env.tokenWriteFails = true

structure CompensationSucceeds (env : PostEnv) (l : Ledger) (tokenId : ℕ) : Prop where
  user : env.compensationFails = false
  lookup : env.creditLookupFails = false
  pool : env.creditFails = false
  ceiling : ∀ tenantID pool, poolOf l tokenId = some (tenantID,pool) →
    pool.currentBalance ≤ pool.maxBalance ∧ FitsInt64 pool.currentBalance

def SwallowedUserWrite (env : PostEnv) (info : RelayInfo) : Prop :=
  0 < info.userId ∧ env.batchUpdateEnabled = false ∧ env.userWriteFails = true ∧ shadowLedger env info = true
  deriving Decidable

def landed (env : PostEnv) (info : RelayInfo) (quota : ℤ) : ℤ :=
  if SwallowedUserWrite env info then 0 else quota

lemma userPhase_landed (h : ¬ StopsAtUser env info) (quota : ℤ) (l : Ledger) :
    ∃ l', userPhase env info quota l = .ok l' ∧ l'.balances = l.balances.chargeUser info.userId (landed env info quota) := by
  by_cases hswallowed : SwallowedUserWrite env info
  · obtain ⟨e,he⟩ := (settleUser_error_iff env.batchUpdateEnabled env.userWriteFails l info.userId quota).mpr
      ⟨hswallowed.2.1,hswallowed.2.2.1⟩
    refine ⟨l,?_,by simp [landed,hswallowed]⟩
    have hpos := hswallowed.1
    simp [userPhase,he,hswallowed.2.2.2]
  · simp only [landed,hswallowed]
    refine userPhase_ok (fun hpos hfails => ?_) quota l
    cases hsha : shadowLedger env info with
    | true => exact hswallowed ⟨hpos,hfails.1,hfails.2,hsha⟩
    | false => exact h ⟨hpos,hfails.1,hfails.2,hsha⟩

lemma compensateUser_eq (id : ℕ) : compensateUser batch fails l id quota =
    (addUserQuota batch fails l id quota).toOption.getD l := by
  have hwrite : (if quota > 0 then increaseUserQuota batch fails l id quota
      else decreaseUserQuota batch fails l id (-quota)) = addUserQuota batch fails l id quota := by
    split
    · exact if_neg (by omega)
    · rw [decreaseUserQuota,if_neg (by omega),Int.neg_neg]
  rw [compensateUser,hwrite]
  cases addUserQuota batch fails l id quota <;> rfl

lemma compensateUser_balances (id : ℕ) :
    (compensateUser batch false l id quota).balances = l.balances.chargeUser id (-quota) := by
  rw [compensateUser_eq]
  cases h : addUserQuota batch false l id quota with
  | ok l' => exact addUserQuota_ok h
  | error e => cases batch <;> simp [addUserQuota] at h

lemma creditPoolAdjustmentTx_fits (tid : TenantID)
    (reason : String) (hpool : db.pools.get? pid = some pool)
    (hfits : FitsInt64 (pool.currentBalance+amount)) (hceiling : pool.currentBalance+amount ≤ pool.maxBalance) :
    ∃ db', creditPoolAdjustmentTx db pid tid amount reason = .ok db' := by
  simp [creditPoolAdjustmentTx,topupPoolInTx,moveBalance,hpool,underCeiling,addBigint,hfits,hceiling,Except.map]

lemma creditTenantPool_restores {l₀ : Ledger} {tokenId : ℕ} {tenantID : TenantID} {pool : TenantCreditPool} {amount : ℤ}
    (hcomp : CompensationSucceeds env l₀ tokenId) (hpool : poolOf l₀ tokenId = some (tenantID,pool))
    (htenant : l.balances.tenant = l₀.balances.tenant) (hdebit : Debited l₀.pools l.pools pool.id amount)
    (reason : String) : ∃ pools, creditTenantPool env tokenId l amount reason = { l with pools } ∧
      ∀ id, poolBalance { l with pools } id = poolBalance l₀ id := by
  obtain ⟨tok₀,htok₀,htenant₀,hnon,hfind,hlimited⟩ := poolOf_eq_some hpool
  obtain ⟨hceiling,hfits⟩ := hcomp.ceiling tenantID pool hpool
  obtain ⟨draw,hmov,-⟩ := hdebit.moved
  have hpos := hdebit.positive
  -- the token and the pool are found again
  obtain ⟨tok,htok,hsame⟩ : ∃ tok, l.token? tokenId = some tok ∧ tok.tenantID = tenantID := by
    have hid := congrFun htenant tokenId
    simp only [Ledger.balances,htok₀,map_some,htenant₀,map_eq_some_iff] at hid
    exact hid
  have hfind' := hmov.getTenantCreditPool_some hfind rfl
  have hget := KeyedTable.get?_of_mem (List.mem_of_find?_eq_some hfind')
  have hback : pool.currentBalance+-amount+amount = pool.currentBalance := by omega
  obtain ⟨pools,htx⟩ := creditPoolAdjustmentTx_fits tenantID reason hget (by rw [hback]; exact hfits)
    (by rw [hback]; exact hceiling)
  have hlookup : creditPoolAdjustmentLookup l.pools tenantID amount = .ok (some pool.id) := by
    have hunl : ({ pool with currentBalance := pool.currentBalance+-amount } : TenantCreditPool).isUnlimited = false :=
      hlimited
    simp [creditPoolAdjustmentLookup,Int.not_le.mpr hpos,hnon,hfind',hunl]
  refine ⟨pools,?_,?_⟩
  · simp [creditTenantPool,hcomp.lookup,htok,hsame,hnon,hlookup,attempt,hcomp.pool,htx]
  · intro id
    obtain ⟨draw',hcredit,-⟩ := (creditPoolAdjustmentTx_ok htx).2.moved
    simp only [poolBalance,hcredit.get?_pools,hmov.get?_pools]
    by_cases hid : id = pool.id
    · simp only [hid,if_true,map_map]
      congr 1
      funext p
      simp only [Function.comp_apply]
      omega
    · simp [hid]

def creditUser (env : PostEnv) (info : RelayInfo) (quota : ℤ) (l : Ledger) : Ledger :=
  if info.userId > 0 then compensateUser env.batchUpdateEnabled env.compensationFails l info.userId quota else l

lemma creditUser_balances (hcomp : env.compensationFails = false) (info : RelayInfo) (quota : ℤ) (l : Ledger) :
    (creditUser env info quota l).balances = l.balances.chargeUser info.userId (-quota) := by
  by_cases hpos : info.userId > 0
  · rw [creditUser,if_pos hpos,hcomp,compensateUser_balances]
  · have hzero : info.userId = 0 := by omega
    rw [creditUser,if_neg hpos,hzero,Ledger.balances_chargeUser_zero]

lemma tokenPhase_failed (htoken : TokenWriteFails env info) (quota debit : ℤ) (debited : Bool) (l : Ledger) :
    ∃ e, tokenPhase env info quota debit debited l =
      (if debited then creditTenantPool env info.tokenId (creditUser env info quota l) debit "token_write"
        else creditUser env info quota l,some e) := by
  obtain ⟨e,herr⟩ := (settleToken_error_iff env.batchUpdateEnabled env.tokenWriteFails l info.tokenId quota).mpr htoken.fails
  have hphase : (!info.isPlayground && decide (info.tokenId > 0)) := by simp [htoken.charged]
  exact ⟨e,by simp [tokenPhase,hphase,herr,creditUser]⟩

theorem postConsumeQuota_compensated {w : World} (htoken : TokenWriteFails env w.info)
    (hcomp : CompensationSucceeds env w.ledger w.info.tokenId) (quota pre : ℤ) :
    let l' := (postConsumeQuota env quota pre w).1.ledger
    l'.balances.user = (w.ledger.balances.chargeUser w.info.userId (landed env w.info quota-quota)).user ∧
    l'.balances.token = w.ledger.balances.token ∧ ∀ id, poolBalance l' id = poolBalance w.ledger id := by
  obtain ⟨l₁,huser,hl₁⟩ := userPhase_landed htoken.reached quota w.ledger
  have hpools₁ : l₁.pools = w.ledger.pools := congrArg pools hl₁
  have hbalance₁ : ∀ id, poolBalance l₁ id = poolBalance w.ledger id := fun id => by rw [poolBalance,hpools₁,poolBalance]
  have hpoolOf : poolOf l₁ w.info.tokenId = poolOf w.ledger w.info.tokenId :=
    poolOf_congr (by rw [hl₁]; rfl) hpools₁ _
  have hcomp₁ : CompensationSucceeds env l₁ w.info.tokenId :=
    ⟨hcomp.user,hcomp.lookup,hcomp.pool,fun t p hp => hcomp.ceiling t p (hpoolOf ▸ hp)⟩
  have huser₂ : (l₁.balances.chargeUser w.info.userId (-quota)).user =
      (w.ledger.balances.chargeUser w.info.userId (landed env w.info quota-quota)).user := by
    rw [hl₁,chargeUser_chargeUser,Int.sub_eq_add_neg]
  have htoken₁ : l₁.balances.token = w.ledger.balances.token := by
    rw [hl₁]
    rfl
  rcases poolPhase_cases env w.info (quota+pre) l₁ with hskip | ⟨tenantID,pool,pools,hpool,hphase,hdebit⟩
  · obtain ⟨e,hfailed⟩ := tokenPhase_failed htoken quota (quota+pre) false l₁
    have hledger : (postConsumeQuota env quota pre w).1.ledger = creditUser env w.info quota l₁ := by
      simp [postConsumeQuota,huser,hskip,hfailed]
    have hbal := creditUser_balances hcomp.user w.info quota l₁
    have hpools : (creditUser env w.info quota l₁).pools = l₁.pools := congrArg pools hbal
    simp only [hledger]
    refine ⟨?_,?_,fun id => ?_⟩
    · rw [hbal,huser₂]
    · rw [hbal,chargeUser_token,htoken₁]
    · rw [poolBalance,hpools,← poolBalance,hbalance₁]
  · obtain ⟨e,hfailed⟩ := tokenPhase_failed htoken quota (quota+pre) true { l₁ with pools }
    have hbal := creditUser_balances hcomp.user w.info quota { l₁ with pools }
    generalize hcredited : creditUser env w.info quota { l₁ with pools } = l₂ at hfailed hbal
    have hpools : l₂.pools = pools := congrArg Balances.pools hbal
    have htenant : l₂.balances.tenant = l₁.balances.tenant := by
      rw [hbal]
      rfl
    obtain ⟨pools',hback,hres⟩ := creditTenantPool_restores hcomp₁ hpool htenant (hpools ▸ hdebit) "token_write"
    have hledger : (postConsumeQuota env quota pre w).1.ledger = { l₂ with pools := pools' } := by
      simp [postConsumeQuota,huser,hphase,hfailed,hback]
    have huser₃ : l₂.balances.user = (l₁.balances.chargeUser w.info.userId (-quota)).user := by
      rw [hbal]
      rfl
    have htoken₃ : l₂.balances.token = l₁.balances.token := by
      rw [hbal]
      rfl
    simp only [hledger]
    exact ⟨huser₃.trans huser₂,htoken₃.trans htoken₁,fun id => (hres id).trans (hbalance₁ id)⟩

/-- The call is without effect unless it swallowed a failed write of the user's. -/
theorem compensation_exact_iff (env : PostEnv) (quota preConsumedQuota : ℤ) (w : World)
    (htoken : TokenWriteFails env w.info) (hcomp : CompensationSucceeds env w.ledger w.info.tokenId) :
    let l' := (postConsumeQuota env quota preConsumedQuota w).1.ledger
    (l'.balances.user = w.ledger.balances.user ∧ l'.balances.token = w.ledger.balances.token ∧
      ∀ id, poolBalance l' id = poolBalance w.ledger id) ↔
    ¬ (SwallowedUserWrite env w.info ∧ quota ≠ 0 ∧ w.ledger.balances.user w.info.userId ≠ none) := by
  obtain ⟨huser,htok,hpools⟩ := postConsumeQuota_compensated htoken hcomp quota preConsumedQuota
  simp only [huser,htok,hpools,chargeUser_user_eq,and_true,implies_true]
  by_cases hswallowed : SwallowedUserWrite env w.info
  · simp only [landed,hswallowed,if_true,true_and,not_and,not_not]
    constructor
    · rintro (hzero | hnone) hquota
      · omega
      · exact hnone
    · intro h
      by_cases hquota : quota = 0
      · exact .inl (by omega)
      · exact .inr (h hquota)
  · simp [landed,hswallowed]

def governed : World := { pooled 7 with info := { (pooled 7).info with platformGoverned := true, walletAuthoritative := true } }

lemma governed_compensates (hcomp : env.compensationFails = false ∧ env.creditLookupFails = false ∧
    env.creditFails = false) : CompensationSucceeds env governed.ledger governed.info.tokenId := by
  refine ⟨hcomp.1,hcomp.2.1,hcomp.2.2,?_⟩
  intro tenantID pool hpool
  have hrow := hpool
  cases hrow
  decide

theorem compensation_exact_iff_landed :
    let l' := (postConsumeQuota { tokenWriteFails := true } 40 50 governed).1.ledger
    l'.balances.user = governed.ledger.balances.user ∧ l'.balances.token = governed.ledger.balances.token ∧
      ∀ id, poolBalance l' id = poolBalance governed.ledger id :=
  (compensation_exact_iff { tokenWriteFails := true } 40 50 governed
    ⟨by simp [StopsAtUser],by decide,by decide⟩ (governed_compensates (by decide))).mpr (by simp [SwallowedUserWrite])

theorem user_credited_for_nothing : governed.ledger.balances.user 1 = some 1000 ∧
    (postConsumeQuota { userWriteFails := true, tokenWriteFails := true } 40 50 governed).1.ledger.balances.user 1 =
      some 1040 := by decide

end LurusHub.PostConsumeCompensation
