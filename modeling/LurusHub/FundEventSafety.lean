import LurusHub.PoolSystem
import Mathlib.Tactic.Linarith

/-! Fund events credit at most once. A slot without a row, or with a stranded one, has no credit
behind it; any other row is final. No funding caller may label its event `topup_stranded`, which the
sweep reads as an open debt. -/
namespace LurusHub.FundEventSafety
open CreditPool FundEvent PoolSystem Transition KeyedTable Option List

def creditCount (db : DB) (slot : TenantID × EventID) : ℕ :=
  db.draws.countP fun d => d.direction = .credit && d.origin = some slot

/-- The sources a row never leaves. -/
def IsFinal : FundSource → Prop
  | .reconciled | .reverted | .manuallyClosed | .adminTopup => True
  | .stranded | .other _ => False

/-- No funding call is labelled with the stranded state's own text. -/
def HonestSource (_ : State) : Act → Prop
  | .fundPoolIdempotentWithReason args _ => args.source ≠ "topup_stranded"
  | _ => True

def OwnPool (s : State) : Act → Prop
  | .debitPool poolID tenantID _ _ _ | .overdraftDebitPool poolID tenantID _ _ _
  | .recordTerminalFundEvent poolID tenantID _ _ _ | .recordStrandedTopup _ tenantID poolID _ =>
    (s.db.pools.get? poolID).map (·.tenantID) = some tenantID
  | .fundPoolIdempotentWithReason args _ => (s.db.pools.get? args.poolID).map (·.tenantID) = some args.tenantID
  | _ => True

/-! Counting credits. -/

lemma creditCount_append (h : db'.draws = db.draws++[d]) : creditCount db' slot = creditCount db slot +
      if d.direction = .credit ∧ d.origin = some slot then 1 else 0 := by
  simp only [creditCount,h,countP_append]
  congr 1
  simp [Bool.and_eq_true]

lemma creditCount_debited (h : Debited db db' poolID amount)
    (slot : TenantID × EventID) : creditCount db' slot = creditCount db slot := by
  obtain ⟨draw,hm,hd⟩ := h.moved
  rw [creditCount_append hm.draws]
  simp [hd]

lemma creditCount_credited (h : Credited db db' poolID amount origin) :
    creditCount db' slot = creditCount db slot + if origin = some slot then 1 else 0 := by
  obtain ⟨draw,hm,hd,ho⟩ := h.moved
  rw [creditCount_append hm.draws]
  simp [hd,ho]

/-- No credit behind a free or stranded slot, at most one behind any other. -/
def OneCredit (db : DB) : Prop :=
  ∀ slot, match db.events.get? slot with
    | none => creditCount db slot = 0
    | some event => if event.source = .stranded then creditCount db slot = 0
      else creditCount db slot ≤ 1

section
variable (h : OneCredit db)
include h

lemma OneCredit.count_le (slot : TenantID × EventID) : creditCount db slot ≤ 1 := by
  have hs := h slot
  split at hs
  · omega
  · split at hs <;> omega

theorem oneCredit_of_same (heve : db'.events = db.events)
    (hcount : ∀ slot, creditCount db' slot = creditCount db slot) : OneCredit db' := by
  intro slot
  have hs := h slot
  rw [heve,hcount]
  exact hs

lemma oneCredit_claimed (hc : Claimed db db' event) : OneCredit db' := by
  have hcount : ∀ slot, creditCount db' slot = creditCount db slot := by
    intro slot
    simp [creditCount,hc.draws]
  rcases hc.events with hins | ⟨_,hsame⟩
  · intro slot
    rw [get?_insert? hins,hcount]
    by_cases hk : slot = event.slot
    · -- the slot was free, so nothing was credited for it
      have hfree := (insert?_eq_some.mp hins).1
      have hs := h event.slot
      rw [hfree] at hs
      rw [if_pos hk,hk]
      dsimp only at hs ⊢
      split <;> omega
    · rw [if_neg hk]
      exact h slot
  · exact oneCredit_of_same h hsame hcount

lemma oneCredit_funded
    (hf : fundPoolTx db args = .ok (db',event)) (hsou : event.source ≠ .stranded) : OneCredit db' := by
  obtain ⟨hc,hins,hslot,_⟩ := fundPoolTx_ok hf
  intro slot
  have hs := h slot
  rw [get?_insert? hins,creditCount_credited hc]
  by_cases hk : slot = event.slot
  · have hfree := (insert?_eq_some.mp hins).1
    rw [hk,hfree] at hs
    rw [if_pos hk,hk,hslot,if_pos rfl]
    rw [hslot] at hs
    dsimp only at hs ⊢
    rw [if_neg hsou,hs]
  · have hne : ¬ some args.slot = some slot := by
      rw [← hslot]
      simpa using Ne.symm hk
    rw [if_neg hk,if_neg hne]
    exact hs

lemma oneCredit_finalized
    (hf : finalizeStrandedTopup db eid tid = .ok (db',settled)) : OneCredit db' := by
  obtain ⟨event,balance,hev,hst,hc,rfl,heve⟩ := finalizeStrandedTopup_ok hf
  intro slot
  have hs := h slot
  rw [heve,creditCount_credited hc]
  by_cases hk : slot = (tid,eid)
  · subst hk
    rw [hev] at hs
    dsimp only at hs
    rw [if_pos hst] at hs
    simp [hs]
  · have hne : ¬ some (tid,eid) = some slot := by simpa using Ne.symm hk
    rw [if_neg hk,if_neg hne]
    exact hs

end

/-! Ceilings. -/

def WithinCeiling (db : DB) : Prop :=
  ∀ k pool, db.pools.get? k = some pool → 0 ≤ pool.maxBalance → pool.currentBalance ≤ pool.maxBalance

lemma withinCeiling_moved (h : WithinCeiling db) (hm : Moved db db' pid delta draw)
    (hroom : ∀ pool, db.pools.get? pid = some pool → 0 ≤ pool.maxBalance →
      pool.currentBalance+delta ≤ pool.maxBalance) : WithinCeiling db' := by
  intro k pool hk hmax
  rw [hm.get?_pools] at hk
  by_cases hp : k = pid
  · subst hp
    rw [if_pos rfl] at hk
    obtain ⟨q,hq,rfl⟩ := map_eq_some_iff.mp hk
    exact hroom q hq hmax
  · rw [if_neg hp] at hk
    exact h k pool hk hmax

lemma withinCeiling_debited (h : WithinCeiling db)
    (hd : Debited db db' pid amount) : WithinCeiling db' := by
  obtain ⟨draw,hm,_⟩ := hd.moved
  refine withinCeiling_moved h hm ?_
  intro pool hpool hmax
  have hle := h pid pool hpool hmax
  have hpos := hd.positive
  omega

lemma withinCeiling_credited (h : WithinCeiling db)
    (hc : Credited db db' poolID amount origin) : WithinCeiling db' := by
  obtain ⟨draw,hm,_⟩ := hc.moved
  refine withinCeiling_moved h hm ?_
  intro pool hpool hmax
  rcases hc.ceiling pool hpool with hunl | hle
  · simp only [poolMaxBalanceUnlimited] at hunl
    omega
  · exact hle

/-! Pools keep their tenant and their ceiling. -/

def PoolsKept (db db' : DB) : Prop :=
  ∀ k pool, db.pools.get? k = some pool → ∃ pool', db'.pools.get? k = some pool' ∧
    pool'.tenantID = pool.tenantID ∧ pool'.maxBalance = pool.maxBalance

def poolTenant (db : DB) (k : PoolID) : Option TenantID := (db.pools.get? k).map (·.tenantID)

lemma poolTenant_kept (h : PoolsKept db db')
    (hk : poolTenant db k = some tenantID) : poolTenant db' k = some tenantID := by
  obtain ⟨pool,hpool,rfl⟩ := map_eq_some_iff.mp hk
  obtain ⟨pool',hpool',ht,_⟩ := h k pool hpool
  simp [poolTenant,hpool',ht]

lemma poolsKept_step (s : State) (a : Act) : PoolsKept s.db (step s a).db := by
  intro k pool hk
  cases hp : pendingReset s a with
  | none =>
    rcases effect_cases (step_effect s a) hp with ⟨poolID,delta,draw,hm⟩ | ⟨new,hins,_⟩ | ⟨hpools,_⟩
    · rw [hm.get?_pools]
      split
      · exact ⟨{ pool with currentBalance := pool.currentBalance+delta },by rw [hk]; rfl,rfl,rfl⟩
      · exact ⟨pool,hk,rfl,rfl⟩
    · have hne : k ≠ new.id := by
        rintro rfl
        rw [(insert?_eq_some.mp hins).1] at hk
        cases hk
      exact ⟨pool,by rw [get?_insert? hins,if_neg hne,hk],rfl,rfl⟩
    · exact ⟨pool,by rw [hpools,hk],rfl,rfl⟩
  | some r =>
    rw [step_pendingReset hp]
    cases hr : resetOnePoolInTx s.db r.2 (resetDelta r.2) r.1 (nextResetAt r.2.resetPeriod r.1) with
    | none => exact ⟨pool,hk,rfl,rfl⟩
    | some db' =>
      obtain ⟨_,_,hpools,_⟩ := resetOnePoolInTx_some hr
      rw [getD_some,hpools,get?_modify]
      split
      · rw [hk]
        exact ⟨_,rfl,rfl,rfl⟩
      · exact ⟨pool,hk,rfl,rfl⟩

/-! The invariant of honest runs. -/

structure Safe (s : State) : Prop where
  oneCredit : OneCredit s.db
  ceiling : WithinCeiling s.db
  honest : ∀ args, Call.fund args ∈ s.calls → args.source ≠ "topup_stranded"
  listed : ∀ now due, Call.reset now due ∈ s.calls → ∀ l ∈ due, ∃ pool,
    s.db.pools.get? l.id = some pool ∧ pool.tenantID = l.tenantID ∧ pool.maxBalance = l.maxBalance

lemma ofText_ne_stranded (h : label ≠ "topup_stranded") : FundSource.ofText label ≠ .stranded := by
  unfold FundSource.ofText
  split_ifs <;> simp

lemma safe_init : Safe init where
  oneCredit := by intro slot; simp [init,DB.empty,creditCount]
  ceiling := by simp [WithinCeiling,init,DB.empty]
  honest := by simp [init]
  listed := by simp [init]

lemma oneCredit_step (hs : Safe s) : OneCredit (step s a).db := by
  have h := hs.oneCredit
  cases step_effect s a with
  | same he => rw [he]; exact h
  | created _ he =>
    obtain ⟨pool,pools,_,hdb,_⟩ := createTenantCreditPool_ok he
    refine oneCredit_of_same h (by rw [hdb]) ?_
    intro slot
    rw [hdb]
    rfl
  | debited _ hev he => exact oneCredit_of_same h hev (creditCount_debited he)
  | adjusted _ _ hev he =>
    refine oneCredit_of_same h hev ?_
    intro slot
    simp [creditCount_credited he]
  | terminal _ he => exact oneCredit_claimed h (recordTerminalFundEvent_ok he)
  | stranded _ he => exact oneCredit_claimed h (recordStrandedTopup_ok he).2
  | funded hcall _ he =>
    obtain ⟨_,_,_,_,_,hsou⟩ := fundPoolTx_ok he
    refine oneCredit_funded h he ?_
    rw [hsou]
    exact ofText_ne_stranded (hs.honest _ hcall)
  | finalized _ he => exact oneCredit_finalized h he
  | reset _ _ _ he =>
    obtain ⟨_,hev,_,draw,hdra,_,_,hori⟩ := resetOnePoolInTx_some he
    refine oneCredit_of_same h hev ?_
    intro slot
    rw [creditCount_append hdra]
    simp [hori]

lemma ceiling_step (hs : Safe s) : WithinCeiling (step s a).db := by
  have h := hs.ceiling
  cases step_effect s a with
  | same he => rw [he]; exact h
  | created _ he =>
    obtain ⟨pool,pools,hins,hdb,hzero,_⟩ := createTenantCreditPool_ok he
    intro k q hk hmax
    rw [hdb,get?_insert? hins] at hk
    split at hk
    · cases hk
      rw [hzero]
      exact hmax
    · exact h k q hk hmax
  | debited _ _ he => exact withinCeiling_debited h he
  | adjusted _ _ _ he => exact withinCeiling_credited h he
  | terminal _ he =>
    intro k q hk hmax
    rw [(recordTerminalFundEvent_ok he).pools] at hk
    exact h k q hk hmax
  | stranded _ he =>
    intro k q hk hmax
    rw [(recordStrandedTopup_ok he).2.pools] at hk
    exact h k q hk hmax
  | funded _ _ he => exact withinCeiling_credited h (fundPoolTx_ok he).1
  | finalized _ he =>
    obtain ⟨event,balance,_,_,hc,_⟩ := finalizeStrandedTopup_ok he
    exact withinCeiling_credited h hc
  | reset hcall _ _ he =>
    obtain ⟨_,_,hpools,_⟩ := resetOnePoolInTx_some he
    obtain ⟨pool,hpool,_,hmaxeq⟩ := hs.listed _ _ hcall _ mem_cons_self
    intro k q hk hmax
    rw [hpools,get?_modify] at hk
    split at hk
    · next hkid =>
      rw [hkid,hpool] at hk
      cases hk
      exact le_of_eq hmaxeq.symm
    · exact h k q hk hmax

lemma safe_step (s : State) (a : Act) (hs : Safe s) (hg : HonestSource s a) : Safe (step s a) where
  oneCredit := oneCredit_step hs
  ceiling := ceiling_step hs
  honest := by
    intro args hcall
    rcases fund_origin hcall with h | ⟨_,rfl⟩
    · exact hs.honest args h
    · exact hg
  listed := by
    intro now due hcall l hl
    have hkept := poolsKept_step s a
    have hold : ∃ pool, s.db.pools.get? l.id = some pool ∧ pool.tenantID = l.tenantID ∧
        pool.maxBalance = l.maxBalance := by
      rcases listed_origin hcall hl with ⟨due,h,hl⟩ | hdue
      · exact hs.listed now due h l hl
      · exact ⟨l,get?_of_mem (mem_filter.mp hdue).1,rfl,rfl⟩
    obtain ⟨pool,hpool,ht,hm⟩ := hold
    obtain ⟨pool',hpool',ht',hm'⟩ := hkept l.id pool hpool
    exact ⟨pool',hpool',ht'.trans ht,hm'.trans hm⟩

/-! Rows that left the stranded state, or never were in it, do not change. -/

inductive RowsChange (s : State) (a : Act) : Prop
  | kept (h : (step s a).db.events = s.db.events)
  | added {event : CreditPoolFundEvent} (hfor : actsFor s a = some event.tenantID)
      (hpool : (OwnPool s a → poolTenant s.db event.poolID = some event.tenantID) ∨
        ∃ args, Call.fund args ∈ s.calls ∧ event.slot = args.slot ∧ event.poolID = args.poolID)
      (h : s.db.events.insert? event = some (step s a).db.events)
  | settled {slot : TenantID × EventID} {event settled : CreditPoolFundEvent} (hfor : actsFor s a = some slot.1)
      (hev : s.db.events.get? slot = some event) (hstranded : event.source = .stranded)
      (hpool : settled.poolID = event.poolID)
      (h : ∀ k, (step s a).db.events.get? k = if k = slot then some settled else s.db.events.get? k)

lemma rowsChange_of_claimed (h : Claimed s.db (step s a).db event)
    (hfor : actsFor s a = some event.tenantID)
    (hpool : OwnPool s a → poolTenant s.db event.poolID = some event.tenantID) : RowsChange s a := by
  rcases h.events with hins | ⟨_,hsame⟩
  · exact .added hfor (.inl hpool) hins
  · exact .kept hsame

lemma rowsChange_step : RowsChange s a := by
  cases step_effect s a with
  | same he => exact .kept (by rw [he])
  | created _ he =>
    obtain ⟨pool,pools,_,hdb,_⟩ := createTenantCreditPool_ok he
    exact .kept (by rw [hdb])
  | debited _ hev _ | adjusted _ _ hev _ => exact .kept hev
  | terminal ha he =>
    subst ha
    exact rowsChange_of_claimed (recordTerminalFundEvent_ok he) rfl fun hown => hown
  | stranded ha he =>
    subst ha
    exact rowsChange_of_claimed (recordStrandedTopup_ok he).2 rfl fun hown => hown
  | funded hcall hfor he =>
    obtain ⟨_,hins,hslot,hpool,_⟩ := fundPoolTx_ok he
    have htenant := (Prod.mk.inj hslot).1
    exact .added (hfor.trans (congrArg some htenant.symm)) (.inr ⟨_,hcall,hslot,hpool⟩) hins
  | finalized hfor he =>
    obtain ⟨event,balance,hev,hstr,_,hset,heve⟩ := finalizeStrandedTopup_ok he
    exact .settled hfor hev hstr (by rw [hset]) heve
  | reset _ _ _ he =>
    obtain ⟨_,hev,_⟩ := resetOnePoolInTx_some he
    exact .kept hev

lemma row_step (a : Act) (hrow : s.db.events.get? slot = some row) (hst : row.source ≠ .stranded) :
    (step s a).db.events.get? slot = some row := by
  cases rowsChange_step with
  | kept h => rw [h,hrow]
  | added _ _ hins =>
    rw [get?_insert? hins]
    split
    · next hk =>
      rw [hk,(insert?_eq_some.mp hins).1] at hrow
      cases hrow
    · exact hrow
  | settled _ hev hstr _ heve =>
    rw [heve]
    split
    · next hk =>
      rw [hk,hev] at hrow
      cases hrow
      exact absurd hstr hst
    · exact hrow

theorem row_run (hrow : s.db.events.get? slot = some row) (hst : row.source ≠ .stranded) :
    (run step s acts).db.events.get? slot = some row :=
  run_stable (I:=fun s : State => s.db.events.get? slot = some row) (fun _ a h => row_step a h hst) acts hrow

lemma IsFinal.ne_stranded (h : IsFinal source) : source ≠ .stranded := by
  rintro rfl
  exact h

/-! Tenants do not touch each other's rows or pools. -/

lemma rows_frame (hfor : actsFor s a ≠ some tid) (eid : EventID) :
    (step s a).db.events.get? (tid,eid) = s.db.events.get? (tid,eid) := by
  cases rowsChange_step with
  | kept h => rw [h]
  | added hf _ hins =>
    rw [get?_insert? hins,if_neg]
    intro hk
    have ht : tid = _ := (Prod.mk.inj hk).1
    exact hfor (by rw [hf,ht])
  | settled hf _ _ _ heve =>
    rw [heve,if_neg]
    intro hk
    exact hfor (by rw [hf,← hk])

structure Owned (s : State) : Prop where
  rows : ∀ slot row, s.db.events.get? slot = some row → poolTenant s.db row.poolID = some slot.1
  funds : ∀ args, Call.fund args ∈ s.calls → poolTenant s.db args.poolID = some args.tenantID
  adjusts : ∀ poolID tenantID amount reason, Call.adjust poolID tenantID amount reason ∈ s.calls →
    poolTenant s.db poolID = some tenantID
  listed : ∀ now due, Call.reset now due ∈ s.calls → ∀ l ∈ due, poolTenant s.db l.id = some l.tenantID

lemma owned_init : Owned init where
  rows := by simp [init,DB.empty]
  funds := by simp [init]
  adjusts := by simp [init]
  listed := by simp [init]

lemma rows_owned (ho : Owned s) (hown : OwnPool s a)
    (hrow : (step s a).db.events.get? slot = some row) : poolTenant s.db row.poolID = some slot.1 := by
  cases rowsChange_step with
  | kept h =>
    rw [h] at hrow
    exact ho.rows slot row hrow
  | added _ hnam hins =>
    rw [get?_insert? hins] at hrow
    split at hrow
    · next hk =>
      cases hrow
      rw [hk]
      rcases hnam with hpool | ⟨args,hcall,hslot,hpool⟩
      · exact hpool hown
      · rw [hslot,hpool]
        exact ho.funds args hcall
    · exact ho.rows slot row hrow
  | settled _ hev _ hpool heve =>
    rw [heve] at hrow
    split at hrow
    · next hk =>
      cases hrow
      rw [hpool,hk]
      exact ho.rows _ _ hev
    · exact ho.rows slot row hrow

lemma adjustmentLookup_tenant (h : creditPoolAdjustmentLookup db tenantID amount = .ok (some poolID)) :
    poolTenant db poolID = some tenantID := by
  unfold creditPoolAdjustmentLookup at h
  split_ifs at h
  split at h
  · simp at h
  · next pool hpool =>
    split_ifs at h
    · simp at h
    · obtain rfl : pool.id = poolID := by simpa using h
      have hmem : pool ∈ db.pools.rows := mem_of_find?_eq_some hpool
      have htenant : pool.tenantID = tenantID := by simpa using find?_some hpool
      simp [poolTenant,get?_of_mem hmem,htenant]

lemma owned_step (s : State) (a : Act) (ho : Owned s) (hown : OwnPool s a) : Owned (step s a) := by
  have hkept := poolsKept_step s a
  constructor
  · intro slot row hrow
    exact poolTenant_kept hkept (rows_owned ho hown hrow)
  · intro args hcall
    apply poolTenant_kept hkept
    rcases fund_origin hcall with h | ⟨_,rfl⟩
    · exact ho.funds args h
    · exact hown
  · intro pid tid amount reason hcall
    apply poolTenant_kept hkept
    cases step_callFrom hcall with
    | kept h => exact ho.adjusts pid tid amount reason h
    | adjust hl h =>
      cases h
      exact adjustmentLookup_tenant hl
    | fund _ h | listed _ h | resetRest _ h => cases h
    | finalize h | sweep h => cases h
  · intro now due hcall l hl
    apply poolTenant_kept hkept
    rcases listed_origin hcall hl with ⟨due,h,hl⟩ | hdue
    · exact ho.listed now due h l hl
    · simp [poolTenant,get?_of_mem (mem_filter.mp hdue).1]

lemma pools_frame_of (hne : owner ≠ tid)
    (howner : poolTenant db pid = some owner) (hkept : PoolsKept db db')
    (hother : ∀ k, k ≠ pid → db'.pools.get? k = db.pools.get? k) (ht : pool.tenantID = tid) :
    db'.pools.get? pool.id = some pool ↔ db.pools.get? pool.id = some pool := by
  by_cases hk : pool.id = pid
  · have howner' := poolTenant_kept hkept howner
    rw [hk]
    constructor
    · intro h
      rw [poolTenant,h] at howner'
      exact absurd (some.inj howner').symm (by simpa [ht] using hne)
    · intro h
      rw [poolTenant,h] at howner
      exact absurd (some.inj howner).symm (by simpa [ht] using hne)
  · rw [hother _ hk]

lemma moved_other (h : Moved db db' pid delta draw) (k : PoolID) (hk : k ≠ pid) :
    db'.pools.get? k = db.pools.get? k := by rw [h.get?_pools,if_neg hk]

lemma pools_frame (ho : Owned s) (hown : OwnPool s a)
    (hfor : actsFor s a ≠ some tenantID) {pool : TenantCreditPool} (ht : pool.tenantID = tenantID) :
    (step s a).db.pools.get? pool.id = some pool ↔ s.db.pools.get? pool.id = some pool := by
  have hkept := poolsKept_step s a
  have hne : ∀ owner, actsFor s a = some owner → owner ≠ tenantID := by
    rintro owner h rfl
    exact hfor h
  cases step_effect s a with
  | same he => rw [he]
  | created hf he =>
    obtain ⟨new,pools,hins,hdb,_,_,hnew⟩ := createTenantCreditPool_ok he
    rw [hdb,get?_insert? hins]
    split
    · next hk =>
      rw [hk,(insert?_eq_some.mp hins).1]
      constructor
      · intro h
        cases h
        exact absurd (hnew.symm.trans ht) (hne _ hf)
      · intro h
        cases h
    · rfl
  | debited ha _ he =>
    obtain ⟨draw,hm,_⟩ := he.moved
    rcases ha with rfl | rfl
    · exact pools_frame_of (hne _ rfl) hown hkept (moved_other hm) ht
    · exact pools_frame_of (hne _ rfl) hown hkept (moved_other hm) ht
  | adjusted hcall hf _ he =>
    obtain ⟨draw,hm,_⟩ := he.moved
    exact pools_frame_of (hne _ hf) (ho.adjusts _ _ _ _ hcall) hkept (moved_other hm) ht
  | terminal _ he => rw [(recordTerminalFundEvent_ok he).pools]
  | stranded _ he => rw [(recordStrandedTopup_ok he).2.pools]
  | funded hcall hf he =>
    obtain ⟨draw,hm,_⟩ := (fundPoolTx_ok he).1.moved
    exact pools_frame_of (hne _ hf) (ho.funds _ hcall) hkept (moved_other hm) ht
  | finalized hf he =>
    obtain ⟨event,balance,hev,_,hc,_⟩ := finalizeStrandedTopup_ok he
    obtain ⟨draw,hm,_⟩ := hc.moved
    exact pools_frame_of (hne _ hf) (ho.rows _ _ hev) hkept (moved_other hm) ht
  | reset hcall _ hf he =>
    obtain ⟨_,_,hpools,_⟩ := resetOnePoolInTx_some he
    refine pools_frame_of (hne _ hf) (ho.listed _ _ hcall _ mem_cons_self) hkept ?_ ht
    intro k hk
    rw [hpools,get?_modify_of_ne _ _ _ hk]

/-- An event is credited once at most, within the ceiling and its own tenant. -/
theorem fundEvents_safe (acts : List Act) (h : Along step HonestSource init acts) :
    (∀ slot, creditCount (run step init acts).db slot ≤ 1) ∧
    (∀ pool ∈ (run step init acts).db.pools.rows, 0 ≤ pool.maxBalance →
      pool.currentBalance ≤ pool.maxBalance) ∧
    (∀ more slot row, (run step init acts).db.events.get? slot = some row → IsFinal row.source →
      (run step init (acts++more)).db.events.get? slot = some row) ∧
    (∀ a tenantID, actsFor (run step init acts) a ≠ some tenantID →
      (∀ eventID, (run step init (acts++[a])).db.events.get? (tenantID,eventID) =
        (run step init acts).db.events.get? (tenantID,eventID)) ∧
      (Along step OwnPool init (acts++[a]) → ∀ pool : TenantCreditPool, pool.tenantID = tenantID →
        (pool ∈ (run step init (acts++[a])).db.pools.rows ↔
          pool ∈ (run step init acts).db.pools.rows))) := by
  have hsafe : Safe (run step init acts) := run_invariant safe_step safe_init h
  refine ⟨hsafe.oneCredit.count_le,?_,?_,?_⟩
  · intro pool hmem
    exact hsafe.ceiling pool.id pool (get?_of_mem hmem)
  · intro more slot row hrow hfinal
    rw [run_append]
    exact row_run hrow hfinal.ne_stranded
  · intro a tenantID hfor
    simp only [run_append,run_cons,run_nil]
    refine ⟨rows_frame hfor,?_⟩
    intro hown pool ht
    obtain ⟨hacts,hlast,_⟩ := (along_append step OwnPool init acts [a]).mp hown
    have ho : Owned (run step init acts) := run_invariant owned_step owned_init hacts
    rw [mem_iff_get?,mem_iff_get?]
    exact pools_frame ho hlast hfor ht

def strandedTwiceRun : List Act :=
  [.createTenantCreditPool "t" 1 100 .monthly 80 0,
   .recordStrandedTopup "e" "t" 1 60,
   .tryFinalizeStrandedTopup "e" "t",
   .reconcileStrandedTopups,
   .advance 1,
   .advance 0]

theorem fundEvents_safe_strandedTwice : Along step HonestSource init strandedTwiceRun ∧
    creditCount (run step init strandedTwiceRun).db ("t","e") ≤ 1 :=
  have h : Along step HonestSource init strandedTwiceRun :=
    ⟨trivial,trivial,trivial,trivial,trivial,trivial,trivial⟩
  ⟨h,(fundEvents_safe strandedTwiceRun h).1 ("t","e")⟩

/-- A funding call whose label is the stranded state's own text, and one sweep. -/
def mislabelledFundRun : List Act :=
  [.createTenantCreditPool "t" 1 100 .monthly 80 0,
   .fundPoolIdempotentWithReason ⟨1,"t",30,"e","topup_stranded",0,"topup"⟩ false,
   .advance 0,
   .reconcileStrandedTopups,
   .advance 0]

theorem mislabelledFundRun_credits_twice :
    creditCount (run step init mislabelledFundRun).db ("t","e") = 2 ∧
    (run step init mislabelledFundRun).db.pools.rows.map (·.currentBalance) = [60] := by decide

end LurusHub.FundEventSafety
