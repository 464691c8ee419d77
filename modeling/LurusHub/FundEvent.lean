import LurusHub.CreditPool

/-! Fund events, one row for each tenant and event id. A slot is claimed by a funding credit, a
terminal marker, or a stranded topup that a later sweep or retry credits and closes. -/
namespace LurusHub.FundEvent
open CreditPool KeyedTable

def validateFundEventID (eventID : EventID) : Except PoolError Unit :=
  if eventID = "" then .error .eventIDRequired
  else if eventID.length > poolFundEventIDMaxLen then .error (.eventIDTooLong eventID.length)
  else if eventID.toList.contains '\x00' then .error .eventIDHasNUL
  else .ok ()

def lookupFundEvent (db : DB) (tenantID : TenantID) (eventID : EventID) : Option CreditPoolFundEvent :=
  if tenantID = "" ∨ eventID = "" then none else db.events.get? (tenantID,eventID)

/-- `INSERT INTO credit_pool_fund_events`; `none` is the unique violation. -/
def insertFundEvent (db : DB) (event : CreditPoolFundEvent) : Option DB :=
  (db.events.insert? event).map fun events => { db with events }

/-- Claims the slot with an outcome; a taken slot is success. -/
def recordTerminalFundEvent (db : DB) (poolID : PoolID) (tenantID : TenantID) (eventID : EventID)
    (amount : ℤ) (source : String) : Except PoolError DB :=
  match validateFundEventID eventID with
  | .error e => .error e
  | .ok () => .ok ((insertFundEvent db { eventID, tenantID, poolID, amount, newBalance := 0,
                                         source := .ofText source }).getD db)

structure FundArgs where
  poolID : PoolID
  tenantID : TenantID
  amount : ℤ
  eventID : EventID
  source : String
  actorUserID : ℤ := 0
  drawReason : String := poolDrawReasonTopup
  deriving DecidableEq, Repr

def FundArgs.slot (args : FundArgs) : TenantID × EventID := (args.tenantID,args.eventID)

def fundPoolCheck (args : FundArgs) : Except PoolError Unit :=
  if args.amount ≤ 0 then .error (.fundAmountNotPositive args.amount)
  else validateFundEventID args.eventID

def fundReason (args : FundArgs) : String :=
  truncateReason (if args.drawReason = "" then poolDrawReasonTopup else args.drawReason)

/-- The transaction of `FundPoolIdempotentWithReason`: the credit, then the event row. The
unique violation rolls the credit back. -/
def fundPoolTx (db : DB) (args : FundArgs) : Except PoolError (DB × CreditPoolFundEvent) :=
  match topupPoolInTx db args.poolID args.tenantID args.amount args.actorUserID (fundReason args)
      (some args.slot) with
  | .error e => .error e
  | .ok (db,newBalance) =>
    let event : CreditPoolFundEvent := {
      eventID := args.eventID, tenantID := args.tenantID, poolID := args.poolID
      amount := args.amount, newBalance, source := .ofText args.source }
    match insertFundEvent db event with
    | none => .error .fundEventExists
    | some db => .ok (db,event)

/-- Opens a stranded event; a taken slot is success. -/
def recordStrandedTopup (db : DB) (eventID : EventID) (tenantID : TenantID) (poolID : PoolID)
    (amount : ℤ) : Except PoolError DB :=
  if eventID = "" ∨ amount ≤ 0 then .error (.strandedTopupArguments eventID amount)
  else .ok ((insertFundEvent db { eventID, tenantID, poolID, amount, newBalance := 0,
                                  source := .stranded }).getD db)

def strandedLookup (db : DB) (eventID : EventID) (tenantID : TenantID) : Option CreditPoolFundEvent :=
  (db.events.get? (tenantID,eventID)).filter fun event =>
    event.source = .stranded || event.source = .reconciled || event.source = .manuallyClosed

/-- Claim, credit, balance write and draw of one stranded event, all or nothing. -/
def finalizeStrandedTopup (db : DB) (eventID : EventID) (tenantID : TenantID) :
    Except PoolError (DB × CreditPoolFundEvent) :=
  match db.events.get? (tenantID,eventID) with
  | none => .error .fundEventNotStranded
  | some event =>
    if event.source = .stranded then
      match topupPoolInTx db event.poolID event.tenantID event.amount 0 poolDrawReasonTopup
          (some event.slot) with
      | .error e => .error e
      | .ok (db,newBalance) =>
        .ok ({ db with events := db.events.modify (tenantID,eventID) fun e =>
                 { e with source := .reconciled, newBalance } },
          { event with source := .reconciled, newBalance })
    else .error .fundEventNotStranded

def creditPoolReconcileBatchSize : ℕ := 100

/-- The list read of `ReconcileStrandedTopups`, oldest first. -/
def strandedRefs (db : DB) : List (EventID × TenantID) :=
  ((db.events.rows.filter fun e => e.source = .stranded).take creditPoolReconcileBatchSize).map
    fun e => (e.eventID,e.tenantID)

lemma insertFundEvent_some (h : insertFundEvent db event = some db') :
    db.events.insert? event = some db'.events ∧ db'.pools = db.pools ∧ db'.draws = db.draws := by
  obtain ⟨events,hi,rfl⟩ := Option.map_eq_some_iff.mp h
  exact ⟨hi,rfl,rfl⟩

lemma insertFundEvent_none :
    insertFundEvent db event = none ↔ ∃ row, db.events.get? event.slot = some row := by
  rw [insertFundEvent,Option.map_eq_none_iff,insert?_eq_none]

structure Claimed (db db' : DB) (event : CreditPoolFundEvent) : Prop where
  pools : db'.pools = db.pools
  draws : db'.draws = db.draws
  events : db.events.insert? event = some db'.events ∨
    (db.events.insert? event = none ∧ db'.events = db.events)

lemma claimed_getD (db : DB) (event : CreditPoolFundEvent) :
    Claimed db ((insertFundEvent db event).getD db) event := by
  cases h : insertFundEvent db event with
  | none => exact ⟨rfl,rfl,.inr ⟨by simpa [insertFundEvent] using h,rfl⟩⟩
  | some db' =>
    obtain ⟨hi,hp,hd⟩ := insertFundEvent_some h
    exact ⟨hp,hd,.inl hi⟩

lemma recordTerminalFundEvent_ok
    (h : recordTerminalFundEvent db poolID tenantID eventID amount source = .ok db') :
    Claimed db db' { eventID, tenantID, poolID, amount, newBalance := 0, source := .ofText source } := by
  unfold recordTerminalFundEvent at h
  split at h
  · simp at h
  · simp only [Except.ok.injEq] at h
    subst h
    exact claimed_getD db _

lemma recordStrandedTopup_ok (h : recordStrandedTopup db eventID tenantID poolID amount = .ok db') :
    0 < amount ∧
      Claimed db db' { eventID, tenantID, poolID, amount, newBalance := 0, source := .stranded } := by
  unfold recordStrandedTopup at h
  split_ifs at h with hargs
  simp only [Except.ok.injEq] at h
  subst h
  exact ⟨by push Not at hargs; omega,claimed_getD db _⟩

lemma fundPoolTx_ok (h : fundPoolTx db args = .ok (db',event)) :
    Credited db db' args.poolID args.amount (some args.slot) ∧
    db.events.insert? event = some db'.events ∧ event.slot = args.slot ∧
    event.poolID = args.poolID ∧ event.amount = args.amount ∧ event.source = .ofText args.source := by
  unfold fundPoolTx at h
  split at h
  · simp at h
  · next db₁ balance ht =>
    obtain ⟨hev,⟨draw,hm,hd,ho⟩,hc⟩ := topupPoolInTx_ok ht
    dsimp only at h
    split at h
    · simp at h
    · next db₂ hins =>
      obtain ⟨hi,hp,hdr⟩ := insertFundEvent_some hins
      obtain ⟨rfl,rfl⟩ := h
      refine ⟨⟨⟨draw,⟨?_,by rw [hdr,hm.draws],hm.target,hm.signed⟩,hd,ho⟩,hc⟩,
        by rw [← hev]; exact hi,rfl,rfl,rfl,rfl⟩
      rw [hp]
      exact hm.pools

lemma finalizeStrandedTopup_ok (h : finalizeStrandedTopup db eid tid = .ok (db',settled)) :
    ∃ event balance, db.events.get? (tid,eid) = some event ∧ event.source = .stranded ∧
      Credited db db' event.poolID event.amount (some (tid,eid)) ∧
      settled = { event with source := .reconciled, newBalance := balance } ∧
      ∀ slot, db'.events.get? slot =
        if slot = (tid,eid) then some settled else db.events.get? slot := by
  unfold finalizeStrandedTopup at h
  split at h
  · simp at h
  · next event hev =>
    have hslot := key_of_get? hev
    split_ifs at h with hs
    split at h
    · simp at h
    · next db₁ balance ht =>
      obtain ⟨heve,⟨draw,hm,hd,ho⟩,hc⟩ := topupPoolInTx_ok ht
      obtain ⟨rfl,rfl⟩ := h
      refine ⟨event,balance,hev,hs,⟨⟨draw,⟨hm.pools,hm.draws,hm.target,hm.signed⟩,hd,by rw [ho,hslot]⟩,hc⟩,
        rfl,?_⟩
      intro slot
      rw [heve,get?_modify]
      split
      · next hk => rw [hk,hev]; rfl
      · rfl

end LurusHub.FundEvent
