import LurusHub.PostConsume

/-! What a served request costs. The freeze takes the estimate, the settlement moves the difference
to the real cost, and the pool pays the whole cost; on the abstract ledger the charges add up to the
price. -/
namespace LurusHub.SettledCost
open CreditPool QuotaLedger PreConsume PostConsume Ledger Balances

def WritesSucceed (pre : PreEnv) (post : PostEnv) : Prop :=
  pre.tokenWriteFails = false ∧ pre.userWriteFails = false ∧ post.userWriteFails = false ∧
    post.tokenWriteFails = false ∧ post.poolDebitFails = false ∧ post.overdraftFails = false
  deriving Decidable

def LookupsSucceed (post : PostEnv) : Prop := post.tokenLookupFails = false ∧ post.poolLookupFails = false

def settledLedger (pre : PreEnv) (post : PostEnv) (estimate quota : ℤ) (w : World) : Ledger :=
  let w := (preConsumeQuota pre estimate w).1
  (postConsumeQuota post (quota-w.info.finalPreConsumedQuota) w.info.finalPreConsumedQuota w).1.ledger

def userCost (info : RelayInfo) (quota : ℤ) (id : ℕ) : ℤ := if id = info.userId ∧ info.userId > 0 then quota else 0

def tokenCost (info : RelayInfo) (quota : ℤ) (id : ℕ) : ℤ :=
  if id = info.tokenId ∧ info.isPlayground = false ∧ info.tokenId > 0 then quota else 0

/-- The finite pool of the token's tenant pays; without a token id there is none. -/
def poolCost (l : Ledger) (info : RelayInfo) (quota : ℤ) (id : PoolID) : ℤ :=
  match poolOf l info.tokenId with
  | some (_,pool) => if id = pool.id then quota else 0
  | none => 0

def poolBalance (l : Ledger) (id : PoolID) : Option ℤ := (l.pools.pools.get? id).map (·.currentBalance)

/-- The pool row can hold the balance after the debit: the one way a debit fails by itself. -/
def PoolFits (l : Ledger) (info : RelayInfo) (quota : ℤ) : Prop :=
  ∀ tenantID pool, poolOf l info.tokenId = some (tenantID,pool) → FitsInt64 (pool.currentBalance-quota)

def charge (b : Balances) (info : RelayInfo) (quota : ℤ) : Balances :=
  (b.chargeToken info.tokenId (tokenFreeze info quota)).chargeUser info.userId quota

lemma tokenFreeze_add : tokenFreeze info x+tokenFreeze info y = tokenFreeze info (x+y) := by
  unfold tokenFreeze
  split <;> simp

lemma charge_charge : charge (charge b info x) info y = charge b info (x+y) := by
  simp [charge,chargeUser_chargeToken,tokenFreeze_add]

@[simp] lemma charge_zero : charge b info 0 = b := by
  simp [charge,tokenFreeze]

lemma charge_congr (h : SameCaller a b) : charge c a x = charge c b x := by
  simp only [charge,tokenFreeze,h.1,h.2.1,h.2.2.1]

lemma charge_user (l : Ledger) (id : ℕ) :
    (charge l.balances info quota).user id = (l.balances.user id).map (·-userCost info quota id) := by
  by_cases hid : id = info.userId
  · subst hid
    by_cases hzero : info.userId = 0
    · simp [charge,hzero,balances,user?]
    · simp [charge,userCost,Nat.pos_of_ne_zero hzero]
  · simp [charge,chargeUser,userCost,hid]

lemma charge_token (l : Ledger) (id : ℕ) :
    (charge l.balances info quota).token id = (l.balances.token id).map fun t =>
      (t.1-tokenCost info quota id,t.2+tokenCost info quota id) := by
  by_cases hid : id = info.tokenId
  · subst hid
    by_cases hzero : info.tokenId = 0
    · simp [charge,hzero,balances,token?]
    · cases hplay : info.isPlayground <;>
        simp [charge,tokenCost,tokenFreeze,hplay,Nat.pos_of_ne_zero hzero]
  · simp [charge,chargeToken,tokenCost,hid]

lemma freeze_charged (he : 0 ≤ est) (h : FreezeResult pre est info advisory l (l',.ok frozen)) :
    0 ≤ frozen ∧ (frozen ≠ 0 ∨ pre.tokenWriteFails = false ∧ pre.userWriteFails = false →
      l'.balances = charge l.balances info frozen) := by
  cases h with
  | tokenLost hlost => simp [hlost.2.1]
  | userLost _ _ _ hlost => simp [hlost.2]
  | provisioned hfrozen hprov =>
    exact ⟨he,fun _ => by rw [charge,← hfrozen.balances,hprov,balances_chargeUser_zero]⟩
  | shadowed hfrozen _ _ _ hbal | debited hfrozen _ _ _ hbal =>
    exact ⟨he,fun _ => by rw [hbal,hfrozen.balances,charge]⟩

theorem admitted_charged (he : 0 ≤ est) (h : (preConsumeQuota pre est w).2 = none) :
    SameCaller (preConsumeQuota pre est w).1.info w.info ∧
    0 ≤ (preConsumeQuota pre est w).1.info.finalPreConsumedQuota ∧
    ((preConsumeQuota pre est w).1.info.finalPreConsumedQuota ≠ 0 ∨
        pre.tokenWriteFails = false ∧ pre.userWriteFails = false →
      (preConsumeQuota pre est w).1.ledger.balances =
        charge w.ledger.balances w.info (preConsumeQuota pre est w).1.info.finalPreConsumedQuota) := by
  have hadm := preConsumeQuota_admission pre est w
  generalize preConsumeQuota pre est w = result at hadm h ⊢
  cases hadm with
  | refused | unreadable | gated | unfrozen => cases h
  | trusted hpass hquota =>
    have hzero : _ = (0 : ℤ) := hquota.elim And.right fun h => by omega
    exact ⟨hpass.staged.sameCaller,by simp [hzero]⟩
  | @frozen info advisory quota frozen ledger hpass htru hest hfre =>
    have hcal := hpass.staged.sameCaller
    have hres := freeze_result pre quota info advisory w.ledger hest
    rw [hfre] at hres
    obtain ⟨hnonneg,hbal⟩ := freeze_charged he hres
    exact ⟨hcal,hnonneg,fun h => (hbal h).trans (charge_congr hcal)⟩

lemma userPhase_ok (hw : 0 < info.userId → ¬(post.batchUpdateEnabled = false ∧ post.userWriteFails)) (quota : ℤ)
    (l : Ledger) : ∃ l', userPhase post info quota l = .ok l' ∧ l'.balances = l.balances.chargeUser info.userId quota := by
  unfold userPhase
  by_cases huser : info.userId > 0
  · cases hs : settleUser post.batchUpdateEnabled post.userWriteFails l info.userId quota with
    | ok l' => exact ⟨l',by simp [huser],settleUser_ok hs⟩
    | error e => exact absurd ((settleUser_error_iff _ _ _ _ _).1 ⟨e,hs⟩) (hw huser)
  · have hprov : info.userId = 0 := by omega
    exact ⟨l,by simp [hprov],by rw [hprov,balances_chargeUser_zero]⟩

lemma tokenPhase_ok (hw : info.isPlayground = false → 0 < info.tokenId →
    ¬(post.batchUpdateEnabled = false ∧ post.tokenWriteFails))
    (quota debit : ℤ) (debited : Bool) (l : Ledger) :
    ∃ l', tokenPhase post info quota debit debited l = (l',none) ∧
      l'.balances = l.balances.chargeToken info.tokenId (tokenFreeze info quota) := by
  unfold tokenPhase
  cases hplay : info.isPlayground with
  | true => exact ⟨l,by simp,by simp [tokenFreeze,hplay]⟩
  | false =>
    by_cases htoken : info.tokenId > 0
    · cases hs : settleToken post.batchUpdateEnabled post.tokenWriteFails l info.tokenId quota with
      | ok l' => exact ⟨l',by simp [htoken],by simpa [tokenFreeze,hplay] using settleToken_ok hs⟩
      | error e => exact absurd ((settleToken_error_iff _ _ _ _ _).1 ⟨e,hs⟩) (hw hplay htoken)
    · have hnone : info.tokenId = 0 := by omega
      exact ⟨l,by simp [hnone],by rw [hnone,balances_chargeToken_zero]⟩

lemma poolPhase_cases (post : PostEnv) (info : RelayInfo) (quota : ℤ) (l : Ledger) :
    poolPhase post info quota l = (l,false) ∨
    ∃ tid pool pools, poolOf l info.tokenId = some (tid,pool) ∧
      poolPhase post info quota l = ({ l with pools },true) ∧ Debited l.pools pools pool.id quota := by
  by_cases hphase : quota > 0 ∧ info.tokenId > 0
  · simp only [poolPhase,hphase,and_self,if_true,debitTenantPool]
    by_cases hlookup : (post.tokenLookupFails || post.poolLookupFails)
    · exact .inl (by simp [hlookup])
    · cases hpool : poolOf l info.tokenId with
      | none => exact .inl (by simp [hlookup])
      | some tp =>
        obtain ⟨tid,pool⟩ := tp
        simp only [hlookup,Bool.false_eq_true,if_false]
        split
        · next pools hok =>
          unfold attempt at hok
          split_ifs at hok
          exact .inr ⟨tid,pool,pools,rfl,rfl,(debitPool_ok hok).2⟩
        · split
          · next pools balance hok =>
            unfold attempt at hok
            split_ifs at hok
            exact .inr ⟨tid,pool,pools,rfl,rfl,(overdraftDebitPool_ok hok).2⟩
          · exact .inl rfl
        · exact .inl rfl
  · exact .inl (by simp [poolPhase,hphase])

lemma poolPhase_pools (post : PostEnv) (info : RelayInfo) (quota : ℤ) (l : Ledger) :
    ∃ pools, (poolPhase post info quota l).1 = { l with pools } := by
  rcases poolPhase_cases post info quota l with hskip | ⟨_,_,pools,_,hdebit,_⟩
  · exact ⟨l.pools,by rw [hskip]⟩
  · exact ⟨pools,by rw [hdebit]⟩

lemma poolPhase_charged (hw : WritesSucceed pre post) (hl : LookupsSucceed post)
    (hq : 0 ≤ quota) (hfits : PoolFits l info quota) (id : PoolID) :
    poolBalance (poolPhase post info quota l).1 id = (poolBalance l id).map (·-poolCost l info quota id) := by
  by_cases hphase : quota > 0 ∧ info.tokenId > 0
  · cases hp : poolOf l info.tokenId with
    | none => simp [poolPhase,hphase,debitTenantPool,hl.1,hl.2,poolCost,hp]
    | some tp =>
      obtain ⟨tid,pool⟩ := tp
      obtain ⟨pools,hdebit,hmov⟩ :=
        debitTenantPool_debited hl ⟨hw.2.2.2.2.1,hw.2.2.2.2.2⟩ hp hphase.1 (hfits tid pool hp)
      obtain ⟨draw,hmov,-⟩ := hmov.moved
      have hrow := hmov.get?_pools id
      have hledger : (poolPhase post info quota l).1 = { l with pools } := by simpa [poolPhase,hphase] using hdebit
      rw [hledger]
      by_cases hid : id = pool.id
      · subst hid
        simp [poolBalance,hrow,poolCost,hp,Function.comp_def,Int.sub_eq_add_neg]
      · simp [poolBalance,hrow,hid,poolCost,hp,Function.comp_def]
  · -- a free request, or one without a token and so without a pool
    have hledger : (poolPhase post info quota l).1 = l := by simp [poolPhase,hphase]
    have hfree : poolCost l info quota id = 0 := by
      rcases (by omega : quota = 0 ∨ info.tokenId = 0) with hzero | hnone
      · cases hp : poolOf l info.tokenId <;> simp [poolCost,hp,hzero]
      · simp [poolCost,hnone,poolOf,token?]
    simp [hledger,hfree]

@[simp] lemma settlePlatformWallet_ledger (env : PostEnv) (totalQuota pre : ℤ)
    (consistent advisory : Bool) (w : World) :
    (settlePlatformWallet env totalQuota pre consistent advisory w).ledger = w.ledger := by
  unfold settlePlatformWallet
  split_ifs <;> simp [settleOrPark]

lemma PoolFits.congr (h : PoolFits l a quota)
    (hpool : poolOf l' b.tokenId = poolOf l a.tokenId) : PoolFits l' b quota := by
  intro tid pool hp
  rw [hpool] at hp
  exact h tid pool hp

theorem postConsumeQuota_legs (huser : post.userWriteFails = false) (htoken : post.tokenWriteFails = false)
    (quota pre : ℤ) (w : World) :
    ∃ l₁ : Ledger, l₁.balances = w.ledger.balances.chargeUser w.info.userId quota ∧
      (postConsumeQuota post quota pre w).1.ledger.balances =
        { charge w.ledger.balances w.info quota with
          pools := (poolPhase post w.info (quota+pre) l₁).1.pools } ∧
      (postConsumeQuota post quota pre w).2 = none := by
  have huser' : ¬(post.batchUpdateEnabled = false ∧ post.userWriteFails) := by simp [huser]
  have htoken' : ¬(post.batchUpdateEnabled = false ∧ post.tokenWriteFails) := by simp [htoken]
  obtain ⟨l₁,hphase₁,hl₁⟩ := userPhase_ok (fun _ : 0 < w.info.userId => huser') quota w.ledger
  obtain ⟨pools,hphase₂⟩ := poolPhase_pools post w.info (quota+pre) l₁
  obtain ⟨l₃,hphase₃,hl₃⟩ := tokenPhase_ok (fun _ (_ : 0 < w.info.tokenId) => htoken') quota (quota+pre)
    (poolPhase post w.info (quota+pre) l₁).2 { l₁ with pools }
  have hledger : (postConsumeQuota post quota pre w).1.ledger = l₃ := by
    simp [postConsumeQuota,hphase₁,hphase₂,hphase₃]
  have hbal : { l₁ with pools }.balances = { l₁.balances with pools } := rfl
  refine ⟨l₁,hl₁,?_,?_⟩
  · rw [hledger,hl₃,hbal,hl₁,hphase₂]
    rfl
  · simp [postConsumeQuota,hphase₁,hphase₂,hphase₃]

lemma postConsumeQuota_charged (hw : WritesSucceed pre post) (quota preConsumedQuota : ℤ)
    (hq : 0 ≤ quota+preConsumedQuota) (hfits : PoolFits w.ledger w.info (quota+preConsumedQuota)) :
    let l' := (postConsumeQuota post quota preConsumedQuota w).1.ledger
    (∃ pools, l'.balances = { charge w.ledger.balances w.info quota with pools }) ∧
    (LookupsSucceed post → ∀ id, poolBalance l' id =
      (poolBalance w.ledger id).map (·-poolCost w.ledger w.info (quota+preConsumedQuota) id)) := by
  obtain ⟨l₁,hl₁,hbal,-⟩ := postConsumeQuota_legs hw.2.2.1 hw.2.2.2.1 quota preConsumedQuota w
  refine ⟨⟨_,hbal⟩,fun hl id => ?_⟩
  have hpools : l₁.pools = w.ledger.pools := congrArg Balances.pools hl₁
  have hpool : poolOf l₁ w.info.tokenId = poolOf w.ledger w.info.tokenId :=
    poolOf_congr (by rw [hl₁]; rfl) hpools _
  have hcost := poolPhase_charged hw hl hq (hfits.congr hpool) id
  have hpools' : (postConsumeQuota post quota preConsumedQuota w).1.ledger.pools =
      (poolPhase post w.info (quota+preConsumedQuota) l₁).1.pools := congrArg Balances.pools hbal
  simp only [poolBalance,hpools',poolCost,hpools,hpool] at hcost ⊢
  exact hcost

theorem settled_costs_price (pre : PreEnv) (post : PostEnv) (estimate quota : ℤ) (w : World)
    (he : 0 ≤ estimate) (hq : 0 ≤ quota) (hw : WritesSucceed pre post)
    (hfits : PoolFits w.ledger w.info quota) (hok : (preConsumeQuota pre estimate w).2 = none) :
    let l' := settledLedger pre post estimate quota w
    (∀ id, l'.balances.user id = (w.ledger.balances.user id).map (·-userCost w.info quota id)) ∧
    (∀ id, l'.balances.token id = (w.ledger.balances.token id).map fun t =>
      (t.1-tokenCost w.info quota id,t.2+tokenCost w.info quota id)) ∧
    (LookupsSucceed post → ∀ id, poolBalance l' id =
      (poolBalance w.ledger id).map (·-poolCost w.ledger w.info quota id)) := by
  obtain ⟨hcal,-,hfrozen⟩ := admitted_charged he hok
  replace hfrozen := hfrozen (.inr ⟨hw.1,hw.2.1⟩)
  have hpools := congrArg Balances.pools hfrozen
  simp only [settledLedger]
  generalize (preConsumeQuota pre estimate w).1 = w₁ at hcal hfrozen hpools ⊢
  have hpool : poolOf w₁.ledger w₁.info.tokenId = poolOf w.ledger w.info.tokenId := by
    rw [hcal.2.1]
    exact poolOf_congr (by rw [hfrozen]; rfl) hpools _
  have hsum : quota-w₁.info.finalPreConsumedQuota+w₁.info.finalPreConsumedQuota = quota := by omega
  have hprice : w₁.info.finalPreConsumedQuota+(quota-w₁.info.finalPreConsumedQuota) = quota := by omega
  obtain ⟨⟨pools,hbal⟩,hcost⟩ := postConsumeQuota_charged hw (quota-w₁.info.finalPreConsumedQuota)
    w₁.info.finalPreConsumedQuota (by omega) (by rw [hsum]; exact hfits.congr hpool)
  rw [hfrozen,charge_congr hcal,charge_charge,hprice] at hbal
  refine ⟨fun id => ?_,fun id => ?_,fun hl id => ?_⟩
  · rw [hbal]
    exact charge_user w.ledger id
  · rw [hbal]
    exact charge_token w.ledger id
  · have hdb : w₁.ledger.pools = w.ledger.pools := hpools
    have hsame : poolBalance w₁.ledger id = poolBalance w.ledger id := by simp [poolBalance,hdb]
    rw [hcost hl id,hsum,hsame]
    simp only [poolCost,hpool]

def pooled (tokenId : ℕ) : World where
  ledger := {
    users := fun id => if id = 1 then some 1000 else none
    tokens := fun id => if id = 7 then some ⟨100,0,"acme"⟩ else none
    userBatch := fun _ => 0
    tokenBatch := fun _ => 0
    pools := { DB.empty with pools := ⟨[{
      id := 1, tenantID := "acme", createdByUserID := 1, currentBalance := 300, maxBalance := 500
      resetPeriod := .none, lastResetAt := 0, nextResetAt := none, alertThresholdPct := 80
      alertFiredAt := none }],List.nodup_singleton _⟩ } }
  info := { userId := 1, tokenId, isPlayground := false, tokenUnlimited := tokenId = 0, identityAccountID := 0 }
  platform := []

def enforcing : PreEnv := { userQuota := some 1000, trustQuota := 5000000 }

theorem settled_costs_price_pooled :
    (settledLedger enforcing {} 50 40 (pooled 7)).balances.user 1 = some 960 ∧
    (settledLedger enforcing {} 50 40 (pooled 7)).balances.token 7 = some (60,40) ∧
    poolBalance (settledLedger enforcing {} 50 40 (pooled 7)) 1 = some 260 := by
  have hfits : PoolFits (pooled 7).ledger (pooled 7).info 40 := by
    intro tenantID pool hpool
    have hrow := hpool
    cases hrow
    decide
  obtain ⟨huser,htoken,hpool⟩ := settled_costs_price enforcing {} 50 40 (pooled 7) (by decide) (by decide)
    (by decide) hfits (by decide)
  exact ⟨(huser 1).trans (by decide),(htoken 7).trans (by decide),(hpool ⟨rfl,rfl⟩ 1).trans (by decide)⟩

theorem pool_debit_skipped :
    (WritesSucceed enforcing { tokenLookupFails := true } ∧ (preConsumeQuota enforcing 50 (pooled 7)).2 = none ∧
      poolBalance (settledLedger enforcing { tokenLookupFails := true } 50 40 (pooled 7)) 1 = some 300) ∧
    (WritesSucceed enforcing {} ∧ (preConsumeQuota enforcing 50 (pooled 0)).2 = none ∧
      poolBalance (settledLedger enforcing {} 50 40 (pooled 0)) 1 = some 300) := by decide

end LurusHub.SettledCost
