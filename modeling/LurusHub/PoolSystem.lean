import LurusHub.FundEvent
import LurusHub.Transition

/-! All writers of the credit pools at once. One step is one transaction or stand-alone read; a call
that needs several keeps what it has read in `calls`. Which call runs next, and which transaction
fails, is the label's choice. -/
namespace LurusHub.PoolSystem
open CreditPool FundEvent List

inductive Call
  | fund (args : FundArgs)
  | adjust (poolID : PoolID) (tenantID : TenantID) (amount : ℤ) (reason : String)
  | finalize (eventID : EventID) (tenantID : TenantID)
  | sweep (refs : List (EventID × TenantID))
  | reset (now : Time) (due : List TenantCreditPool)
  deriving DecidableEq, Repr

structure State where
  db : DB
  calls : List Call

def init : State := ⟨.empty,[]⟩

inductive Act
  | createTenantCreditPool (tenantID : TenantID) (createdByUserID : ℤ) (maxBalance : Int64)
      (resetPeriod : ResetPeriod) (alertThresholdPct : ℤ) (now : Time)
  | debitPool (poolID : PoolID) (tenantID : TenantID) (amount tokenID logID : ℤ)
  | overdraftDebitPool (poolID : PoolID) (tenantID : TenantID) (amount tokenID logID : ℤ)
  | fundPoolIdempotentWithReason (args : FundArgs) (readFails : Bool)
  | creditPoolAdjustment (tenantID : TenantID) (amount : ℤ) (reason : String)
  | recordTerminalFundEvent (poolID : PoolID) (tenantID : TenantID) (eventID : EventID) (amount : ℤ)
      (source : String)
  | recordStrandedTopup (eventID : EventID) (tenantID : TenantID) (poolID : PoolID) (amount : ℤ)
  | tryFinalizeStrandedTopup (eventID : EventID) (tenantID : TenantID)
  | reconcileStrandedTopups
  | resetDuePools (now : Time)
  /-- The next transaction of the `i`-th call. -/
  | advance (i : ℕ)
  /-- The next transaction of the `i`-th call fails and rolls back. -/
  | fault (i : ℕ)

def commit (db : DB) : Except PoolError DB → DB
  | .ok db' => db'
  | .error _ => db

def Call.execute (db : DB) : Call → DB × Option Call
  | .fund args => (commit db ((fundPoolTx db args).map Prod.fst),none)
  | .adjust poolID tenantID amount reason =>
    (commit db (creditPoolAdjustmentTx db poolID tenantID amount reason),none)
  | .finalize eventID tenantID => (commit db ((finalizeStrandedTopup db eventID tenantID).map Prod.fst),none)
  | .sweep [] => (db,none)
  | .sweep ((eventID,tenantID)::refs) =>
    (commit db ((finalizeStrandedTopup db eventID tenantID).map Prod.fst),some (.sweep refs))
  | .reset _ [] => (db,none)
  | .reset now (listed::due) =>
    ((resetOnePoolInTx db listed (resetDelta listed) now (nextResetAt listed.resetPeriod now)).getD db,
      some (.reset now due))

/-- What is left of a call whose transaction failed: a sweep goes on, the others return the error.
-/
def Call.abort : Call → Option Call
  | .sweep (_::refs) => some (.sweep refs)
  | _ => none

def resume (calls : List Call) (i : ℕ) : Option Call → List Call
  | some call => calls.set i call
  | none => calls.eraseIdx i

def step (s : State) : Act → State
  | .createTenantCreditPool tenantID createdByUserID maxBalance resetPeriod alertThresholdPct now =>
    { s with db := commit s.db (CreditPool.createTenantCreditPool s.db tenantID createdByUserID
        maxBalance resetPeriod alertThresholdPct now) }
  | .debitPool poolID tenantID amount tokenID logID =>
    { s with db := commit s.db (CreditPool.debitPool s.db poolID tenantID amount tokenID logID) }
  | .overdraftDebitPool poolID tenantID amount tokenID logID =>
    { s with db := commit s.db <|
        (CreditPool.overdraftDebitPool s.db poolID tenantID amount tokenID logID).map Prod.fst }
  | .fundPoolIdempotentWithReason args readFails =>
    match fundPoolCheck args with
    | .error _ => s
    | .ok () =>
      -- a failed read is taken for a miss: the fast path only returns on a row found
      if !readFails && (s.db.events.get? args.slot).isSome then s
      else { s with calls := s.calls++[.fund args] }
  | .creditPoolAdjustment tenantID amount reason =>
    match creditPoolAdjustmentLookup s.db tenantID amount with
    | .ok (some poolID) => { s with calls := s.calls++[.adjust poolID tenantID amount reason] }
    | _ => s
  | .recordTerminalFundEvent poolID tenantID eventID amount source =>
    { s with db := commit s.db (FundEvent.recordTerminalFundEvent s.db poolID tenantID eventID amount source) }
  | .recordStrandedTopup eventID tenantID poolID amount =>
    { s with db := commit s.db (FundEvent.recordStrandedTopup s.db eventID tenantID poolID amount) }
  | .tryFinalizeStrandedTopup eventID tenantID =>
    match strandedLookup s.db eventID tenantID with
    | some event =>
      if event.source = .stranded then { s with calls := s.calls++[.finalize eventID tenantID] } else s
    | none => s
  | .reconcileStrandedTopups => { s with calls := s.calls++[.sweep (strandedRefs s.db)] }
  | .resetDuePools now => { s with calls := s.calls++[.reset now (duePools s.db now)] }
  | .advance i =>
    match s.calls[i]? with
    | none => s
    | some call =>
      let (db,rest) := call.execute s.db
      ⟨db,resume s.calls i rest⟩
  | .fault i =>
    match s.calls[i]? with
    | none => s
    | some call => { s with calls := resume s.calls i call.abort }

/-! What one step can do. -/

def pendingReset (s : State) : Act → Option (Time × TenantCreditPool)
  | .advance i =>
    match s.calls[i]? with
    | some (.reset now (listed::_)) => some (now,listed)
    | _ => none
  | _ => none

/-- The tenant on whose behalf a label touches the database; a list read has none. -/
def actsFor (s : State) : Act → Option TenantID
  | .createTenantCreditPool tenantID .. | .debitPool _ tenantID .. | .overdraftDebitPool _ tenantID ..
  | .creditPoolAdjustment tenantID .. | .recordTerminalFundEvent _ tenantID ..
  | .recordStrandedTopup _ tenantID .. | .tryFinalizeStrandedTopup _ tenantID => some tenantID
  | .fundPoolIdempotentWithReason args _ => some args.tenantID
  | .reconcileStrandedTopups | .resetDuePools _ | .fault _ => none
  | .advance i =>
    match s.calls[i]? with
    | some (.fund args) => some args.tenantID
    | some (.adjust _ tenantID _ _) => some tenantID
    | some (.finalize _ tenantID) => some tenantID
    | some (.sweep ((_,tenantID)::_)) => some tenantID
    | some (.reset _ (listed::_)) => some listed.tenantID
    | _ => none

inductive Effect (s : State) (a : Act) (db' : DB) : Prop
  | same (h : db' = s.db)
  | created {tenantID : TenantID} {createdByUserID : ℤ} {maxBalance : Int64} {resetPeriod : ResetPeriod}
      {alertThresholdPct : ℤ} {now : Time} (hfor : actsFor s a = some tenantID)
      (h : CreditPool.createTenantCreditPool s.db tenantID createdByUserID maxBalance resetPeriod
        alertThresholdPct now = .ok db')
  | debited {poolID : PoolID} {tenantID : TenantID} {amount tokenID logID : ℤ}
      (ha : a = .debitPool poolID tenantID amount tokenID logID ∨
        a = .overdraftDebitPool poolID tenantID amount tokenID logID)
      (hevents : db'.events = s.db.events) (h : Debited s.db db' poolID amount)
  | adjusted {poolID : PoolID} {tenantID : TenantID} {amount : ℤ} {reason : String}
      (hcall : Call.adjust poolID tenantID amount reason ∈ s.calls) (hfor : actsFor s a = some tenantID)
      (hevents : db'.events = s.db.events)
      (h : Credited s.db db' poolID amount none)
  | terminal {poolID : PoolID} {tenantID : TenantID} {eventID : EventID} {amount : ℤ} {source : String}
      (ha : a = .recordTerminalFundEvent poolID tenantID eventID amount source)
      (h : FundEvent.recordTerminalFundEvent s.db poolID tenantID eventID amount source = .ok db')
  | stranded {poolID : PoolID} {tenantID : TenantID} {eventID : EventID} {amount : ℤ}
      (ha : a = .recordStrandedTopup eventID tenantID poolID amount)
      (h : FundEvent.recordStrandedTopup s.db eventID tenantID poolID amount = .ok db')
  | funded {args : FundArgs} {event : CreditPoolFundEvent} (hcall : Call.fund args ∈ s.calls)
      (hfor : actsFor s a = some args.tenantID)
      (h : fundPoolTx s.db args = .ok (db',event))
  | finalized {eventID : EventID} {tenantID : TenantID} {event : CreditPoolFundEvent}
      (hfor : actsFor s a = some tenantID)
      (h : finalizeStrandedTopup s.db eventID tenantID = .ok (db',event))
  | reset {now : Time} {listed : TenantCreditPool} {due : List TenantCreditPool}
      (hcall : Call.reset now (listed::due) ∈ s.calls) (hp : pendingReset s a = some (now,listed))
      (hfor : actsFor s a = some listed.tenantID)
      (h : resetOnePoolInTx s.db listed (resetDelta listed) now (nextResetAt listed.resetPeriod now) =
        some db')

lemma commit_cases (db : DB) (r : Except PoolError DB) : commit db r = db ∨ r = .ok (commit db r) := by
  cases r with
  | error e => exact .inl rfl
  | ok db' => exact .inr rfl

lemma commit_map_cases {α : Type} (r : Except PoolError (DB × α)) :
    commit db (r.map Prod.fst) = db ∨ ∃ v, r = .ok (commit db (r.map Prod.fst),v) := by
  cases r with
  | error e => exact .inl rfl
  | ok p => exact .inr ⟨p.2,rfl⟩

variable {call c : Call}

lemma execute_effect (hcall : s.calls[i]? = some call) :
    Effect s (.advance i) (call.execute s.db).1 := by
  have hmem : call ∈ s.calls := mem_of_getElem? hcall
  cases call with
  | fund args =>
    rcases commit_map_cases (fundPoolTx s.db args) with h | ⟨event,h⟩
    · exact .same h
    · exact .funded hmem (by simp [actsFor,hcall]) h
  | adjust pid tid amount reason =>
    rcases commit_cases s.db (creditPoolAdjustmentTx s.db pid tid amount reason) with h | h
    · exact .same h
    · have hok := creditPoolAdjustmentTx_ok h
      exact .adjusted hmem (by simp [actsFor,hcall]) hok.1 hok.2
  | finalize eid tid =>
    rcases commit_map_cases (finalizeStrandedTopup s.db eid tid) with h | ⟨event,h⟩
    · exact .same h
    · exact .finalized (by simp [actsFor,hcall]) h
  | sweep refs =>
    cases refs with
    | nil => exact .same rfl
    | cons ref refs =>
      rcases commit_map_cases (finalizeStrandedTopup s.db ref.1 ref.2) with h | ⟨event,h⟩
      · exact .same h
      · exact .finalized (by simp [actsFor,hcall]) h
  | reset now due =>
    cases due with
    | nil => exact .same rfl
    | cons listed due =>
      cases h : resetOnePoolInTx s.db listed (resetDelta listed) now
          (nextResetAt listed.resetPeriod now) with
      | none => exact .same (by simp [Call.execute,h])
      | some db' =>
        have hp : pendingReset s (.advance i) = some (now,listed) := by simp [pendingReset,hcall]
        exact .reset hmem hp (by simp [actsFor,hcall]) (by simp [Call.execute,h])

lemma step_effect (s : State) (a : Act) : Effect s a (step s a).db := by
  cases a with
  | createTenantCreditPool tid createdByUserID maxBalance resetPeriod alertThresholdPct now =>
    rcases commit_cases s.db (createTenantCreditPool s.db tid createdByUserID
      maxBalance resetPeriod alertThresholdPct now) with h | h
    · exact .same h
    · exact .created rfl h
  | debitPool pid tid amount tok logID =>
    rcases commit_cases s.db (debitPool s.db pid tid amount tok logID) with h | h
    · exact .same h
    · exact .debited (.inl rfl) (debitPool_ok h).1 (debitPool_ok h).2
  | overdraftDebitPool pid tid amount tok logID =>
    rcases commit_map_cases
      (overdraftDebitPool s.db pid tid amount tok logID) with h | ⟨balance,h⟩
    · exact .same h
    · exact .debited (.inr rfl) (overdraftDebitPool_ok h).1 (overdraftDebitPool_ok h).2
  | fundPoolIdempotentWithReason args readFails =>
    refine .same ?_
    simp only [step]
    split
    · rfl
    · split <;> rfl
  | creditPoolAdjustment tid amount reason =>
    refine .same ?_
    simp only [step]
    split <;> rfl
  | recordTerminalFundEvent pid tid eid amount source =>
    rcases commit_cases s.db
      (FundEvent.recordTerminalFundEvent s.db pid tid eid amount source) with h | h
    · exact .same h
    · exact .terminal rfl h
  | recordStrandedTopup eid tid pid amount =>
    rcases commit_cases s.db
      (FundEvent.recordStrandedTopup s.db eid tid pid amount) with h | h
    · exact .same h
    · exact .stranded rfl h
  | tryFinalizeStrandedTopup eid tid =>
    refine .same ?_
    simp only [step]
    split
    · split <;> rfl
    · rfl
  | reconcileStrandedTopups | resetDuePools now => exact .same rfl
  | advance i =>
    simp only [step]
    split
    · exact .same rfl
    · next call hcall => exact execute_effect hcall
  | fault i =>
    refine .same ?_
    simp only [step]
    split <;> rfl

inductive CallFrom (s : State) (a : Act) (call : Call) : Prop
  | kept (h : call ∈ s.calls)
  | fund {args : FundArgs} {readFails : Bool} (ha : a = .fundPoolIdempotentWithReason args readFails)
      (h : call = .fund args)
  | adjust {poolID : PoolID} {tenantID : TenantID} {amount : ℤ} {reason : String}
      (hl : creditPoolAdjustmentLookup s.db tenantID amount = .ok (some poolID))
      (h : call = .adjust poolID tenantID amount reason)
  | finalize {eventID : EventID} {tenantID : TenantID} (h : call = .finalize eventID tenantID)
  | sweep {refs : List (EventID × TenantID)} (h : call = .sweep refs)
  | listed {now : Time} (ha : a = .resetDuePools now) (h : call = .reset now (duePools s.db now))
  | resetRest {now : Time} {listed : TenantCreditPool} {due : List TenantCreditPool}
      (hcall : Call.reset now (listed::due) ∈ s.calls) (h : call = .reset now due)

lemma mem_resume (h : call ∈ resume calls i rest) : call ∈ calls ∨ rest = some call := by
  cases rest with
  | none => exact .inl (mem_of_mem_eraseIdx h)
  | some c =>
    rcases mem_or_eq_of_mem_set h with h | h
    · exact .inl h
    · exact .inr (by rw [h])

theorem execute_rest (h : (c.execute db).2 = some call) :
    (∃ refs, call = .sweep refs) ∨ ∃ now listed due, c = .reset now (listed::due) ∧ call = .reset now due := by
  cases c with
  | fund | adjust | finalize => cases h
  | sweep refs =>
    cases refs with
    | nil => cases h
    | cons ref refs => exact .inl ⟨refs,(Option.some.inj h).symm⟩
  | reset now due =>
    cases due with
    | nil => cases h
    | cons listed due => exact .inr ⟨now,listed,due,rfl,(Option.some.inj h).symm⟩

lemma abort_rest (h : c.abort = some call) : ∃ refs, call = .sweep refs := by
  cases c with
  | fund | adjust | finalize | reset => cases h
  | sweep refs =>
    cases refs with
    | nil => cases h
    | cons ref refs => exact ⟨refs,(Option.some.inj h).symm⟩

lemma callFrom_push (h : call ∈ s.calls++[c])
    (hnew : call = c → CallFrom s a call) : CallFrom s a call := by
  rcases mem_append.mp h with hold | hopened
  · exact .kept hold
  · exact hnew (mem_singleton.mp hopened)

lemma step_callFrom (h : call ∈ (step s a).calls) : CallFrom s a call := by
  cases a with
  | createTenantCreditPool | debitPool | overdraftDebitPool | recordTerminalFundEvent
  | recordStrandedTopup => exact .kept h
  | fundPoolIdempotentWithReason args readFails =>
    simp only [step] at h
    split at h
    · exact .kept h
    · split at h
      · exact .kept h
      · exact callFrom_push h (.fund rfl)
  | creditPoolAdjustment tid amount reason =>
    simp only [step] at h
    split at h
    · next poolID hl => exact callFrom_push h (.adjust hl)
    · exact .kept h
  | tryFinalizeStrandedTopup eventID tid =>
    simp only [step] at h
    split at h
    · split at h
      · exact callFrom_push h .finalize
      · exact .kept h
    · exact .kept h
  | reconcileStrandedTopups => exact callFrom_push h .sweep
  | resetDuePools now => exact callFrom_push h (.listed rfl)
  | advance i =>
    simp only [step] at h
    split at h
    · exact .kept h
    · next c hc =>
      rcases mem_resume h with h | h
      · exact .kept h
      · rcases execute_rest h with ⟨refs,hrest⟩ | ⟨now,listed,due,hres,hrest⟩
        · exact .sweep hrest
        · exact .resetRest (hres ▸ mem_of_getElem? hc) hrest
  | fault i =>
    simp only [step] at h
    split at h
    · exact .kept h
    · next c hc =>
      rcases mem_resume h with h | h
      · exact .kept h
      · obtain ⟨refs,hrest⟩ := abort_rest h
        exact .sweep hrest

lemma fund_origin (h : Call.fund args ∈ (step s a).calls) :
    Call.fund args ∈ s.calls ∨ ∃ readFails, a = .fundPoolIdempotentWithReason args readFails := by
  cases step_callFrom h with
  | kept h => exact .inl h
  | fund ha h =>
    cases h
    exact .inr ⟨_,ha⟩
  | adjust _ h | listed _ h | resetRest _ h => cases h
  | finalize h | sweep h => cases h

lemma listed_origin (h : Call.reset now due ∈ (step s a).calls) (hl : listed ∈ due) :
    (∃ due', Call.reset now due' ∈ s.calls ∧ listed ∈ due') ∨ listed ∈ duePools s.db now := by
  cases step_callFrom h with
  | kept h => exact .inl ⟨due,h,hl⟩
  | listed _ h =>
    cases h
    exact .inr hl
  | resetRest hc h =>
    cases h
    exact .inl ⟨_,hc,mem_cons_of_mem _ hl⟩
  | fund _ h | adjust _ h => cases h
  | finalize h | sweep h => cases h

theorem effect_cases (h : Effect s a db') (hp : pendingReset s a = none) :
    (∃ pid delta draw, Moved s.db db' pid delta draw) ∨
    (∃ pool, s.db.pools.insert? pool = some db'.pools ∧ db'.draws = s.db.draws ∧
      pool.currentBalance = 0 ∧ FitsInt64 pool.maxBalance) ∨
    (db'.pools = s.db.pools ∧ db'.draws = s.db.draws) := by
  cases h with
  | same h => exact .inr (.inr ⟨by rw [h],by rw [h]⟩)
  | created _ h =>
    obtain ⟨pool,pools,hins,rfl,hzero,hmax,_⟩ := createTenantCreditPool_ok h
    refine .inr (.inl ⟨pool,hins,rfl,hzero,?_⟩)
    rw [hmax]
    exact ⟨Int64.le_toInt _,Int64.toInt_lt _⟩
  | debited _ _ h | adjusted _ _ _ h =>
    obtain ⟨draw,hm,_⟩ := h.moved
    exact .inl ⟨_,_,draw,hm⟩
  | terminal _ h =>
    have hc := recordTerminalFundEvent_ok h
    exact .inr (.inr ⟨hc.pools,hc.draws⟩)
  | stranded _ h =>
    have hc := (recordStrandedTopup_ok h).2
    exact .inr (.inr ⟨hc.pools,hc.draws⟩)
  | funded _ _ h =>
    obtain ⟨draw,hm,_⟩ := (fundPoolTx_ok h).1.moved
    exact .inl ⟨_,_,draw,hm⟩
  | finalized _ h =>
    obtain ⟨event,balance,_,_,hc,_⟩ := finalizeStrandedTopup_ok h
    obtain ⟨draw,hm,_⟩ := hc.moved
    exact .inl ⟨_,_,draw,hm⟩
  | reset _ hpr _ _ => rw [hp] at hpr; cases hpr

lemma step_pendingReset (h : pendingReset s a = some (now,listed)) :
    (step s a).db = (resetOnePoolInTx s.db listed (resetDelta listed) now
      (nextResetAt listed.resetPeriod now)).getD s.db := by
  cases a with
  | advance i =>
    simp only [pendingReset] at h
    split at h
    · next n l due hc =>
      obtain ⟨rfl,rfl⟩ := h
      simp [step,hc,Call.execute]
    · simp at h
  | _ => simp [pendingReset] at h

lemma reset_mem_of_pending
    (h : pendingReset s a = some (now,listed)) : ∃ due, Call.reset now (listed::due) ∈ s.calls := by
  cases a with
  | advance i =>
    simp only [pendingReset] at h
    split at h
    · next n l due hc =>
      obtain ⟨rfl,rfl⟩ := h
      exact ⟨due,mem_of_getElem? hc⟩
    · simp at h
  | _ => simp [pendingReset] at h

end LurusHub.PoolSystem
