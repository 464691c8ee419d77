import LurusHub.PoolConservation

/-! Deleting a credit pool. `DeleteCreditPool` sets the ceiling to zero and writes a debit of the
balance, but leaves the balance, which the relay's gate reads. No later operation lifts a spent
balance, except a reset that had listed the row before. -/
namespace LurusHub.PoolDeletion
open CreditPool FundEvent PoolSystem PoolConservation Transition KeyedTable Option List

inductive CreditPoolRequired
  | off | log | enforce
  deriving DecidableEq, Repr

inductive GateVerdict
  | next
  | poolNotConfigured
  | poolExhausted
  deriving DecidableEq, Repr

/-- The gate in front of every relay group; a read that fails lets the request through. -/
def poolBalanceCheck (required : CreditPoolRequired) (readFails : Bool) (db : DB) (tenantID : TenantID) :
    GateVerdict :=
  if tenantID = "" then .next
  else if readFails then .next
  else match getTenantCreditPool db tenantID with
    | none =>
      match required with
      | .enforce => .poolNotConfigured
      | .log | .off => .next
    | some pool =>
      if pool.isUnlimited then .next
      else if pool.isExhausted then .poolExhausted
      else .next

inductive DeleteError
  | poolNotFound
  | internal
  deriving DecidableEq, Repr

structure DeleteEnv where
  readFails : Bool := false
  updateFails : Bool := false
  insertFails : Bool := false

def zeroCeiling (db : DB) (poolID : PoolID) : DB :=
  { db with pools := db.pools.modify poolID fun p => { p with maxBalance := 0 } }

/-- Three statements outside any transaction; a draw that cannot be written is only logged. -/
def deleteCreditPool (env : DeleteEnv) (db : DB) (tenantID : TenantID) (actorUserID : ℤ) : Except DeleteError DB :=
  match (if env.readFails then none else getTenantCreditPool db tenantID) with
  | none => .error .poolNotFound
  | some pool =>
    if env.updateFails then .error .internal
    else
      let db := zeroCeiling db pool.id
      if env.insertFails then .ok db
      else .ok { db with
        draws := db.draws++[{ poolID := pool.id, tenantID, direction := .debit, amount := pool.currentBalance,
                              reason := poolDrawReasonAdjustment, actorUserID }] }

theorem deleteCreditPool_ok (h : deleteCreditPool env db tid actorUserID = .ok db') :
    ∃ pool, getTenantCreditPool db tid = some pool ∧
      getTenantCreditPool db' tid = some { pool with maxBalance := 0 } ∧
      ledgerBalance db'.draws pool.id =
        ledgerBalance db.draws pool.id-if env.insertFails then 0 else pool.currentBalance := by
  unfold deleteCreditPool at h
  split at h
  · cases h
  · next pool hread =>
    have hpool : getTenantCreditPool db tid = some pool := by
      split_ifs at hread
      exact hread
    have hzero := getTenantCreditPool_modify db pool.id tid (fun p => { p with maxBalance := 0 })
      (fun _ => rfl) (fun _ => rfl)
    rw [hpool,map_some,if_pos rfl] at hzero
    refine ⟨pool,hpool,?_⟩
    split_ifs at h with hupd hins
    · cases h
      exact ⟨hzero,by simp [zeroCeiling,hins]⟩
    · cases h
      refine ⟨hzero,?_⟩
      rw [ledgerBalance_append_one]
      simp [zeroCeiling,hins,TenantCreditPoolDraw.signed,Int.sub_eq_add_neg]

def Closed (poolID : PoolID) (tenantID : TenantID) (s : State) : Prop :=
  ∃ pool, getTenantCreditPool s.db tenantID = some pool ∧ pool.id = poolID ∧ pool.maxBalance = 0

def ListedFinite (s : State) : Prop :=
  ∀ now due, Call.reset now due ∈ s.calls → ∀ listed ∈ due, 0 < listed.maxBalance

lemma listedFinite_step (hs : ListedFinite s) : ListedFinite (step s a) := by
  intro now due hcall listed hlisted
  rcases listed_origin hcall hlisted with ⟨due,h,hlisted⟩ | hdue
  · exact hs now due h listed hlisted
  · have hdue := (mem_filter.mp hdue).2
    simp only [Bool.and_eq_true,decide_eq_true_eq] at hdue
    exact hdue.2

lemma listedFinite_run : ListedFinite (run step init acts) := by
  refine run_invariant (G:=fun _ _ => True) (fun s a hs _ => listedFinite_step hs) ?_
    (along_of_forall (fun _ _ _ => trivial) init)
  intro now due hcall
  cases hcall

lemma moved_getTenantCreditPool (h : Moved db db' pid delta draw)
    (hpool : getTenantCreditPool db tid = some pool) :
    getTenantCreditPool db' tid = some (if pool.id = pid
      then { pool with currentBalance := pool.currentBalance+delta } else pool) := by
  by_cases hid : pool.id = pid
  · rw [if_pos hid]
    exact h.getTenantCreditPool_some hpool hid
  · obtain ⟨target,_,_,heq⟩ := h.pools
    have hmodi := getTenantCreditPool_modify db pid tid
      (fun p => { p with currentBalance := target.currentBalance+delta }) (fun _ => rfl) (fun _ => rfl)
    rw [← heq,hpool,map_some,if_neg hid] at hmodi
    rw [if_neg hid]
    exact hmodi

lemma inserted_getTenantCreditPool (h : db.pools.insert? new = some db'.pools)
    (hpool : getTenantCreditPool db tid = some pool) : getTenantCreditPool db' tid = some pool := by
  have hrows := (insert?_eq_some.mp h).2
  unfold getTenantCreditPool at hpool ⊢
  rw [hrows,find?_append,hpool]
  rfl

def StaysClosed (db' : DB) (tenantID : TenantID) (pool : TenantCreditPool) : Prop :=
  ∃ pool', getTenantCreditPool db' tenantID = some pool' ∧ pool'.id = pool.id ∧ pool'.maxBalance = 0 ∧
    (pool.currentBalance ≤ 0 → pool'.currentBalance ≤ 0)

section
variable {tid : TenantID} (hpool : getTenantCreditPool db tid = some pool) (hmax : pool.maxBalance = 0)
include hpool hmax

lemma moved_closed (h : Moved db db' pid delta draw)
    (hdown : pool.id = pid → pool.currentBalance ≤ 0 → pool.currentBalance+delta ≤ 0) :
    StaysClosed db' tid pool := by
  refine ⟨_,moved_getTenantCreditPool h hpool,?_⟩
  by_cases hid : pool.id = pid
  · simpa [hid,hmax] using hdown hid
  · simp [hid,hmax]

lemma debited_closed (h : Debited db db' poolID amount) : StaysClosed db' tid pool := by
  obtain ⟨draw,hmov,_⟩ := h.moved
  have hpos := h.positive
  exact moved_closed hpool hmax hmov fun _ hspe => by omega

theorem credited_closed (h : Credited db db' poolID amount origin) : StaysClosed db' tid pool := by
  obtain ⟨draw,hmov,_⟩ := h.moved
  refine moved_closed hpool hmax hmov fun hid _ => ?_
  have hrow := get?_of_mem (mem_of_find?_eq_some hpool)
  rw [hid] at hrow
  rcases h.ceiling pool hrow with hunl | hceiling
  · rw [hmax] at hunl
    cases hunl
  · omega

end

lemma reset_getTenantCreditPool {next : Option Time}
    (h : resetOnePoolInTx db listed delta now next = some db') (hpool : getTenantCreditPool db tid = some pool) :
    ∃ pool', getTenantCreditPool db' tid = some pool' ∧ pool'.id = pool.id ∧
      pool'.maxBalance = pool.maxBalance ∧
      pool'.currentBalance = if pool.id = listed.id then listed.maxBalance else pool.currentBalance := by
  obtain ⟨_,_,hpools,_⟩ := resetOnePoolInTx_some h
  have hmodi := getTenantCreditPool_modify db listed.id tid
    (fun p => { p with currentBalance := listed.maxBalance, lastResetAt := now, nextResetAt := next, alertFiredAt := none })
    (fun _ => rfl) (fun _ => rfl)
  rw [← hpools,hpool] at hmodi
  refine ⟨_,hmodi,?_⟩
  by_cases hid : pool.id = listed.id <;> simp [hid]

lemma effect_closed
    (h : Effect s a db') (hp : pendingReset s a = none) (hpool : getTenantCreditPool s.db tid = some pool)
    (hmax : pool.maxBalance = 0) : StaysClosed db' tid pool := by
  have hsame (hpools : db'.pools = s.db.pools) : getTenantCreditPool db' tid = some pool := by
    rw [← hpool,getTenantCreditPool,getTenantCreditPool,hpools]
  cases h with
  | same h => exact ⟨pool,hsame (by rw [h]),rfl,hmax,id⟩
  | created _ h =>
    obtain ⟨new,pools,hins,rfl,_⟩ := createTenantCreditPool_ok h
    exact ⟨pool,inserted_getTenantCreditPool hins hpool,rfl,hmax,id⟩
  | debited _ _ h => exact debited_closed hpool hmax h
  | adjusted _ _ _ h => exact credited_closed hpool hmax h
  | terminal _ h => exact ⟨pool,hsame (recordTerminalFundEvent_ok h).pools,rfl,hmax,id⟩
  | stranded _ h => exact ⟨pool,hsame (recordStrandedTopup_ok h).2.pools,rfl,hmax,id⟩
  | funded _ _ h => exact credited_closed hpool hmax (fundPoolTx_ok h).1
  | finalized _ h =>
    obtain ⟨_,_,_,_,hc,_⟩ := finalizeStrandedTopup_ok h
    exact credited_closed hpool hmax hc
  | reset _ hpr _ _ =>
    rw [hp] at hpr
    cases hpr

/-- The step does not run a reset that listed the pool earlier and still wins its swap. -/
def NoRefill (poolID : PoolID) (s : State) (a : Act) : Prop :=
  ∀ r ∈ pendingReset s a, r.2.id = poolID → ∀ pool ∈ s.db.pools.get? poolID, ¬ SwapWins pool r.2
  deriving Decidable

theorem closed_step (hfinite : ListedFinite s)
    (hpool : getTenantCreditPool s.db tid = some pool) (hmax : pool.maxBalance = 0) :
    ∃ pool', getTenantCreditPool (step s a).db tid = some pool' ∧ pool'.id = pool.id ∧ pool'.maxBalance = 0 ∧
      (pool.currentBalance ≤ 0 → (pool'.currentBalance ≤ 0 ↔ NoRefill pool.id s a)) := by
  have hrow := get?_of_mem (mem_of_find?_eq_some hpool)
  cases hp : pendingReset s a with
  | none =>
    obtain ⟨pool',hpool',hid,hmax',hspe⟩ := effect_closed (step_effect s a) hp hpool hmax
    have hno : NoRefill pool.id s a := by simp [NoRefill,hp]
    exact ⟨pool',hpool',hid,hmax',fun h => iff_of_true (hspe h) hno⟩
  | some r =>
    obtain ⟨now,listed⟩ := r
    obtain ⟨due,hcall⟩ := reset_mem_of_pending hp
    have hpositive := hfinite now _ hcall listed mem_cons_self
    have hno : NoRefill pool.id s a ↔ (listed.id = pool.id → ¬ SwapWins pool listed) := by
      simp [NoRefill,hp,hrow]
    rw [step_pendingReset hp]
    cases hr : resetOnePoolInTx s.db listed (resetDelta listed) now (nextResetAt listed.resetPeriod now) with
    | none =>
      refine ⟨pool,hpool,rfl,hmax,fun h => iff_of_true h (hno.mpr fun hid => ?_)⟩
      exact resetOnePoolInTx_none hr pool (by rw [hid]; exact hrow)
    | some db' =>
      obtain ⟨pool',hpool',hid',hmax',hbal⟩ := reset_getTenantCreditPool hr hpool
      refine ⟨pool',hpool',hid',hmax'.trans hmax,fun hspe => ?_⟩
      rw [hno,hbal]
      by_cases hid : pool.id = listed.id
      · obtain ⟨⟨row,hfound,hwins⟩,_⟩ := resetOnePoolInTx_some hr
        rw [← hid,hrow] at hfound
        obtain rfl : pool = row := some.inj hfound
        simp [hid,hwins,hpositive]
      · simp [hid,Ne.symm hid,hspe]

lemma poolBalanceCheck_closed
    (hpool : getTenantCreditPool db tid = some pool) (hmax : pool.maxBalance = 0) :
    poolBalanceCheck required readFails db tid = .poolExhausted ↔
      tid ≠ "" ∧ readFails = false ∧ pool.currentBalance ≤ 0 := by
  have hlimited : pool.isUnlimited = false := by simp [TenantCreditPool.isUnlimited,hmax,poolMaxBalanceUnlimited]
  by_cases hempty : tid = ""
  · simp [poolBalanceCheck,hempty]
  · cases readFails <;> simp [poolBalanceCheck,hempty,hpool,hlimited,TenantCreditPool.isExhausted]

def Blocked (required : CreditPoolRequired) (readFails : Bool) (tenantID : TenantID) (s : State) : Prop :=
  poolBalanceCheck required readFails s.db tenantID = .poolExhausted

theorem blocked_always_iff (hfinite : ListedFinite s) (hclosed : Closed pid tid s)
    (hblo : Blocked required readFails tid s) :
    Always step (Blocked required readFails tid) s later ↔ Along step (NoRefill pid) s later := by
  refine always_iff_along (J:=fun s => ListedFinite s ∧ Closed pid tid s) ?_ ?_ later ⟨hfinite,hclosed⟩ hblo
  · rintro s a ⟨hfinite,pool,hpool,rfl,hmax⟩
    obtain ⟨pool',hpool',hid,hmax',_⟩ := closed_step hfinite hpool hmax
    exact ⟨listedFinite_step hfinite,pool',hpool',hid,hmax'⟩
  · rintro s a ⟨hfinite,pool,hpool,rfl,hmax⟩ hblo
    obtain ⟨pool',hpool',hid,hmax',hspe⟩ := closed_step hfinite hpool hmax
    obtain ⟨hnam,hread,hbal⟩ := (poolBalanceCheck_closed hpool hmax).mp hblo
    rw [← hspe hbal]
    exact (poolBalanceCheck_closed hpool' hmax').trans (by simp [hnam,hread])

lemma noRefill_along {pid : PoolID} {tenantID : TenantID} {s : State} {later : List Act} (hfinite : ListedFinite s)
    (hclosed : Closed pid tenantID s)
    (hunl : ∀ now due, Call.reset now due ∈ s.calls → ∀ listed ∈ due, listed.id ≠ pid) :
    Along step (NoRefill pid) s later := by
  induction later generalizing s with
  | nil => trivial
  | cons a later ih =>
    obtain ⟨pool,hpool,rfl,hmax⟩ := hclosed
    obtain ⟨pool',hpool',hid,hmax',_⟩ := closed_step hfinite hpool hmax
    have hrow := get?_of_mem (mem_of_find?_eq_some hpool)
    refine ⟨fun r hr hsame => ?_,ih (listedFinite_step hfinite) ⟨pool',hpool',hid,hmax'⟩ ?_⟩
    · obtain ⟨due,hcall⟩ := reset_mem_of_pending hr
      exact absurd hsame (hunl _ _ hcall r.2 mem_cons_self)
    · intro now due hcall listed hlisted
      rcases listed_origin hcall hlisted with ⟨due,h,hlisted⟩ | hdue
      · exact hunl now due h listed hlisted
      · obtain ⟨hmem,hdue⟩ := mem_filter.mp hdue
        intro hsame
        have hfound := get?_of_mem hmem
        rw [hsame,hrow] at hfound
        obtain rfl : pool = listed := some.inj hfound
        simp [hmax] at hdue

theorem noRefill_of_unlisted (acts : List Act) (db : DB) (hclosed : Closed pid tenantID ⟨db,(run step init acts).calls⟩)
    (hunl : ∀ now due, Call.reset now due ∈ (run step init acts).calls → ∀ listed ∈ due, listed.id ≠ pid)
    (later : List Act) : Along step (NoRefill pid) ⟨db,(run step init acts).calls⟩ later := by
  have hfinite : ListedFinite ⟨db,(run step init acts).calls⟩ := listedFinite_run
  exact noRefill_along hfinite hclosed hunl

def SumsUp (db : DB) (tenantID : TenantID) : Prop :=
  ∀ pool ∈ getTenantCreditPool db tenantID, pool.currentBalance = ledgerBalance db.draws pool.id

/-- The balance is spent, the deletion's draw does not disturb the ledger, the gate can read the
row, and no reset from before refills it. -/
def DrainsCleanly (env : DeleteEnv) (readFails : Bool) (s after : State) (tenantID : TenantID) (later : List Act) :
    Prop :=
  tenantID ≠ "" ∧ readFails = false ∧ ∃ pool, getTenantCreditPool s.db tenantID = some pool ∧
    pool.currentBalance ≤ 0 ∧ (SumsUp s.db tenantID → env.insertFails = true ∨ pool.currentBalance = 0) ∧
    Along step (NoRefill pool.id) after later

/-- After a deletion the gate refuses for good exactly when the pool drains cleanly. -/
theorem deleteCreditPool_drains_iff (acts : List Act) {env : DeleteEnv} {tenantID : TenantID} {actorUserID : ℤ}
    {db' : DB} (hdelete : deleteCreditPool env (run step init acts).db tenantID actorUserID = .ok db')
    (required : CreditPoolRequired) (readFails : Bool) (later : List Act) :
    let s := run step init acts
    let after : State := ⟨db',s.calls⟩
    (Always step (Blocked required readFails tenantID) after later ∧ (SumsUp s.db tenantID → SumsUp db' tenantID)) ↔
      DrainsCleanly env readFails s after tenantID later := by
  intro s after
  obtain ⟨pool,hpool,hpool',hledger⟩ := deleteCreditPool_ok hdelete
  have hfinite : ListedFinite after := listedFinite_run
  have hclosed : Closed pool.id tenantID after := ⟨_,hpool',rfl,rfl⟩
  have hgate : Blocked required readFails tenantID after ↔ tenantID ≠ "" ∧ readFails = false ∧
      ({ pool with maxBalance := 0 } : TenantCreditPool).currentBalance ≤ 0 := poolBalanceCheck_closed hpool' rfl
  have hsums : (SumsUp s.db tenantID → SumsUp db' tenantID) ↔
      (SumsUp s.db tenantID → env.insertFails = true ∨ pool.currentBalance = 0) := by
    refine imp_congr_right fun hbefore => ?_
    have hbal := hbefore pool hpool
    simp only [SumsUp,hpool',mem_some_iff,forall_eq']
    rw [hledger,← hbal]
    cases env.insertFails <;> simp
  rw [hsums]
  constructor
  · rintro ⟨halw,hkeeps⟩
    have hblo := halw.here
    obtain ⟨hnam,hread,hspe⟩ := hgate.mp hblo
    exact ⟨hnam,hread,pool,hpool,hspe,hkeeps,(blocked_always_iff hfinite hclosed hblo).mp halw⟩
  · rintro ⟨hnam,hread,row,hrow,hspe,hkeeps,halo⟩
    obtain rfl : pool = row := some.inj (hpool.symm.trans hrow)
    have hblo := hgate.mpr ⟨hnam,hread,hspe⟩
    exact ⟨(blocked_always_iff hfinite hclosed hblo).mpr halo,hkeeps⟩

def unfunded : List Act := [.createTenantCreditPool "t" 1 100 .daily 80 0]

def funded : List Act :=
  unfunded++[.fundPoolIdempotentWithReason ⟨1,"t",50,"e","platform-billing-outbox",0,"topup"⟩ false,.advance 0]

def deleted (acts : List Act) : DB :=
  match deleteCreditPool {} (run step init acts).db "t" 1 with
  | .ok db => db
  | .error _ => (run step init acts).db

theorem noRefill_of_unlisted_later :
    Along step (NoRefill 1) ⟨deleted unfunded,[]⟩ [.resetDuePools dayNanos,.advance 0] :=
  noRefill_of_unlisted unfunded (deleted unfunded) (show Closed 1 "t" _ from ⟨_,rfl,rfl,rfl⟩)
    (fun _ _ h => absurd (show Call.reset _ _ ∈ [] from h) not_mem_nil) _

theorem deleteCreditPool_drains_unfunded : Always step (Blocked .off false "t") ⟨deleted unfunded,[]⟩
      [.debitPool 1 "t" 10 7 0,.overdraftDebitPool 1 "t" 10 7 0,.resetDuePools dayNanos,.advance 0] := by
  have hdelete : deleteCreditPool {} (run step init unfunded).db "t" 1 = .ok (deleted unfunded) := rfl
  have hpool : (getTenantCreditPool (run step init unfunded).db "t").map (·.currentBalance) = some 0 := rfl
  obtain ⟨pool,hpool,hzero⟩ := map_eq_some_iff.mp hpool
  refine ((deleteCreditPool_drains_iff unfunded hdelete .off false _).mpr
    ⟨by decide,rfl,pool,hpool,by omega,fun _ => .inr hzero,?_⟩).1
  cases hpool
  decide

theorem deleteCreditPool_leaves_balance : poolBalanceCheck .off false (deleted funded) "t" = .next ∧
      (getTenantCreditPool (deleted funded) "t").map (fun p => (p.currentBalance,p.isExhausted)) = some (50,false) ∧
      ledgerBalance (run step init funded).db.draws 1 = 50 ∧ ledgerBalance (deleted funded).draws 1 = 0 := by
  decide

end LurusHub.PoolDeletion
