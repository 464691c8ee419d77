import LurusHub.FundEventSafety

/-! The admin topup: wallet debit, pool credit, and the revert of a debit whose credit failed,
across two services. Any number of requests with one key interleave with the pool system. The
platform applies a wallet reference once; a failed wallet call moved nothing. -/
namespace LurusHub.TopupProtocol
open CreditPool FundEvent PoolSystem Transition KeyedTable

structure Intent where
  tenantID : TenantID
  poolID : PoolID
  key : EventID
  amount : ℤ
  actorUserID : ℤ := 0
  reason : String := ""
  /-- `hex(sha256(key)[:16])` -/
  digest : String := ""

def Intent.slot (c : Intent) : TenantID × EventID := (c.tenantID,c.key)

def poolTopupFundSourceAdmin := "admin_topup"
def poolTopupFundSourceReverted := "topup_reverted"

def Intent.fundArgs (c : Intent) : FundArgs :=
  ⟨c.poolID,c.tenantID,c.amount,c.key,poolTopupFundSourceAdmin,c.actorUserID,c.reason⟩

def Intent.revertRef (c : Intent) : String := c.key ++ ":revert"

def poolTopupCollisionEventID (c : Intent) : EventID := "pool-topup-collision:" ++ c.digest

inductive PoolTopupKeyVerdict
  | settled | amountMismatch | reverted | stranded | foreign
  deriving DecidableEq, Repr

/-- What the row holding the key means for this request: provenance, then identity. -/
def classifyPoolTopupKey (event : CreditPoolFundEvent) (poolID : PoolID) (amount : ℤ) :
    PoolTopupKeyVerdict :=
  match event.source with
  | .adminTopup =>
    if event.poolID ≠ poolID then .foreign
    else if event.amount ≠ amount then .amountMismatch
    else .settled
  | .reverted => .reverted
  | .stranded | .reconciled | .manuallyClosed => .stranded
  | .other _ => .foreign

inductive Response
  | toppedUp (newBalance : ℤ)
  | replayed (newBalance : ℤ)
  | reconciled (newBalance : ℤ)
  | keyInvalid (e : PoolError)
  | keyUnverifiable | keyAmountMismatch | keyReverted | keyCollision | keyInUse
  | walletDebitFailed
  | ceilingExceeded | intentClosed
  | topupFailed (e : PoolError)
  deriving DecidableEq, Repr

def failure (e : PoolError) : Response :=
  if e = .poolWouldExceedCeiling then .ceilingExceeded else .topupFailed e

/-! The platform wallet. -/

structure WalletMovement where
  ref : String
  amount : ℤ
  deriving DecidableEq, Repr

abbrev Wallet := KeyedTable WalletMovement String WalletMovement.ref

/-- A successful call: a reference seen before moves nothing. -/
def Wallet.apply (w : Wallet) (m : WalletMovement) : Wallet := (w.insert? m).getD w

inductive Pc
  | lookup
  | debitWallet
  | tryFinalize
  | finalize
  | reread
  | fundFast
  | fundTx
  | refetch
  /-- A failed revert strands under `strandedEventID`, and `answer` is sent afterwards. `terminal` is
  the ordinary path, which then marks the key reverted. -/
  | revert (strandedEventID : EventID) (terminal : Bool) (answer : Response)
  | recordStranded (strandedEventID : EventID) (answer : Response)
  | recordTerminal (answer : Response)
  | done (answer : Response)
  deriving DecidableEq, Repr

def Pc.isDone : Pc → Bool
  | .done _ => true
  | _ => false

structure State where
  system : PoolSystem.State
  wallet : Wallet
  requests : List Pc

/-- The pre-debit answer to a row that holds the key. -/
def beforeDebit (c : Intent) (event : CreditPoolFundEvent) : Pc :=
  match classifyPoolTopupKey event c.poolID c.amount with
  | .settled => .done (.replayed event.newBalance)
  | .amountMismatch => .done .keyAmountMismatch
  | .reverted => .done .keyReverted
  | .foreign => .done .keyCollision
  | .stranded => .debitWallet

/-- The `ErrFundEventExists` arm, with the wallet already debited. -/
def onFundEventExists (c : Intent) (event : CreditPoolFundEvent) : Pc :=
  match classifyPoolTopupKey event c.poolID c.amount with
  | .settled => .done (.replayed event.newBalance)
  | .foreign => .revert (poolTopupCollisionEventID c) false .keyCollision
  | .amountMismatch | .reverted | .stranded => .done .keyInUse

/-- One call of a request. `fails` is the environment's choice: the read or the transaction
errors, or the platform refuses. -/
def Pc.exec (c : Intent) (db : DB) (wallet : Wallet) (fails : Bool) : Pc → DB × Wallet × Pc
  | .lookup =>
    if fails then (db,wallet,.done .keyUnverifiable)
    else match lookupFundEvent db c.tenantID c.key with
      | none => (db,wallet,.debitWallet)
      | some event => (db,wallet,beforeDebit c event)
  | .debitWallet =>
    if fails then (db,wallet,.done .walletDebitFailed)
    else (db,wallet.apply ⟨c.key,-c.amount⟩,.tryFinalize)
  | .tryFinalize =>
    -- a failed lookup is reported as "not handled", so the request goes on to the credit
    if fails then (db,wallet,.fundFast)
    else match strandedLookup db c.key c.tenantID with
      | none => (db,wallet,.fundFast)
      | some event =>
        if event.source = .reconciled then (db,wallet,.done (.reconciled event.newBalance))
        else if event.source = .manuallyClosed then (db,wallet,.done .intentClosed)
        else (db,wallet,.finalize)
  | .finalize =>
    if fails then (db,wallet,.done (failure (.database "claim stranded event")))
    else match finalizeStrandedTopup db c.key c.tenantID with
      | .ok (db,settled) => (db,wallet,.done (.reconciled settled.newBalance))
      | .error .fundEventNotStranded => (db,wallet,.reread)
      | .error e => (db,wallet,.done (failure e))
  | .reread =>
    match (if fails then none else db.events.get? c.slot) with
    | some closed => (db,wallet,.done (.reconciled closed.newBalance))
    | none => (db,wallet,.done (failure
        (.database "stranded event closed concurrently but re-read failed")))
  | .fundFast =>
    match fundPoolCheck c.fundArgs with
    | .error e => (db,wallet,.revert c.key true (failure e))
    | .ok () =>
      match (if fails then none else db.events.get? c.slot) with
      | some existing => (db,wallet,onFundEventExists c existing)
      | none => (db,wallet,.fundTx)
  | .fundTx =>
    match (if fails then .error (.database "fund pool balance update") else fundPoolTx db c.fundArgs) with
    | .ok (db,event) => (db,wallet,.done (.toppedUp event.newBalance))
    | .error .fundEventExists => (db,wallet,.refetch)
    | .error e => (db,wallet,.revert c.key true (failure e))
  | .refetch =>
    match (if fails then none else db.events.get? c.slot) with
    | some race => (db,wallet,onFundEventExists c race)
    -- the read error is not the replay sentinel, so it takes the revert path
    | none => (db,wallet,.revert c.key true (failure (.database "fund event replay re-fetch")))
  | .revert strandedEventID terminal answer =>
    if fails then (db,wallet,.recordStranded strandedEventID answer)
    else (db,wallet.apply ⟨c.revertRef,c.amount⟩,if terminal then .recordTerminal answer else .done answer)
  | .recordStranded strandedEventID answer =>
    if fails then (db,wallet,.done answer)
    else (commit db (recordStrandedTopup db strandedEventID c.tenantID c.poolID c.amount),wallet,.done answer)
  | .recordTerminal answer =>
    if fails then (db,wallet,.done answer)
    else (commit db (recordTerminalFundEvent db c.poolID c.tenantID c.key c.amount
        poolTopupFundSourceReverted),wallet,.done answer)
  | .done answer => (db,wallet,.done answer)

/-- The key is validated before anything else happens to it. -/
def Pc.first (c : Intent) : Pc :=
  match validateFundEventID c.key with
  | .error e => .done (.keyInvalid e)
  | .ok () => .lookup

inductive Label
  | start
  | request (i : ℕ) (fails : Bool)
  | system (a : Act)

def step (c : Intent) (s : State) : Label → State
  | .start => { s with requests := s.requests++[Pc.first c] }
  | .request i fails =>
    match s.requests[i]? with
    | none => s
    | some pc =>
      let (db,wallet,pc) := pc.exec c s.system.db s.wallet fails
      ⟨{ s.system with db },wallet,s.requests.set i pc⟩
  | .system a => { s with system := PoolSystem.step s.system a }

/-! What one step does to the key: its row, the credits behind it, and its two wallet
references. -/

def creditedTo (db : DB) (poolID : PoolID) (slot : TenantID × EventID) : ℤ :=
  ((db.draws.filter fun d => d.direction = .credit && d.poolID = poolID && d.origin = some slot).map
    (·.amount)).sum

structure View where
  row : Option CreditPoolFundEvent
  credited : ℤ
  (debited refunded : Bool)

def viewOf (c : Intent) (db : DB) (wallet : Wallet) : View where
  row := db.events.get? c.slot
  credited := creditedTo db c.poolID c.slot
  debited := (wallet.get? c.key).isSome
  refunded := (wallet.get? c.revertRef).isSome

def view (c : Intent) (s : State) : View := viewOf c s.system.db s.wallet

lemma creditedTo_append (db db' : DB) (d : TenantCreditPoolDraw) (pid : PoolID)
    (slot : TenantID × EventID) (h : db'.draws = db.draws++[d]) :
    creditedTo db' pid slot = creditedTo db pid slot +
      if d.direction = .credit ∧ d.poolID = pid ∧ d.origin = some slot then d.amount else 0 := by
  by_cases hd : d.direction = .credit ∧ d.poolID = pid ∧ d.origin = some slot
  · simp [creditedTo,h,hd]
  · have hf : (decide (d.direction = .credit) && decide (d.poolID = pid) &&
        decide (d.origin = some slot)) = false := by simpa [and_assoc] using hd
    simp [creditedTo,h,hf,hd]

lemma creditedTo_debited (h : Debited db db' target amount)
    (pid : PoolID) (slot : TenantID × EventID) :
    creditedTo db' pid slot = creditedTo db pid slot := by
  obtain ⟨draw,hm,hd⟩ := h.moved
  rw [creditedTo_append db db' draw pid slot hm.draws]
  simp [hd]

lemma creditedTo_credited (h : Credited db db' target amount origin)
    (pid : PoolID) (slot : TenantID × EventID) :
    creditedTo db' pid slot = creditedTo db pid slot +
      if target = pid ∧ origin = some slot then amount else 0 := by
  obtain ⟨draw,hm,hd,ho⟩ := h.moved
  have hamount : draw.amount = amount := by
    have hs := hm.signed
    rw [TenantCreditPoolDraw.signed,hd] at hs
    exact hs
  rw [creditedTo_append db db' draw pid slot hm.draws]
  simp [hd,ho,hm.target,hamount]

lemma creditedTo_of_draws (h : db'.draws = db.draws) (pid : PoolID)
    (slot : TenantID × EventID) : creditedTo db' pid slot = creditedTo db pid slot := by
  simp [creditedTo,h]

theorem view_claimed (hc : Claimed db db' event) (hslot : event.slot = c.slot) :
    viewOf c db' wallet = { viewOf c db wallet with row := (viewOf c db wallet).row.or (some event) } := by
  have hrow : db'.events.get? c.slot = (db.events.get? c.slot).or (some event) := by
    rcases hc.events with hins | ⟨hnone,hsame⟩
    · rw [get?_insert? hins,if_pos hslot.symm,← hslot,(insert?_eq_some.mp hins).1]
      rfl
    · obtain ⟨q,hq⟩ := insert?_eq_none.mp hnone
      have hq' : db.events.get? c.slot = some q := by rw [← hslot]; exact hq
      rw [hsame,hq']
      rfl
  simp only [viewOf,hrow,creditedTo_of_draws hc.draws]

lemma view_funded (wallet : Wallet) (h : fundPoolTx db c.fundArgs = .ok (db',event)) :
    (viewOf c db wallet).row = none ∧ event.poolID = c.poolID ∧ event.amount = c.amount ∧
    event.source = .adminTopup ∧
    viewOf c db' wallet = { viewOf c db wallet with
      row := some event
      credited := (viewOf c db wallet).credited+c.amount } := by
  obtain ⟨hc,hins,hslot,hpool,hamount,hsou⟩ := fundPoolTx_ok h
  have hslot' : event.slot = c.slot := hslot
  have hfree : db.events.get? c.slot = none := by
    rw [← hslot']
    exact (insert?_eq_some.mp hins).1
  have hcred := creditedTo_credited hc c.poolID c.slot
  rw [if_pos ⟨rfl,rfl⟩] at hcred
  refine ⟨hfree,hpool,hamount,hsou,?_⟩
  simp only [viewOf,get?_insert? hins,hslot',hcred]
  rfl

lemma view_finalized (c : Intent) (wallet : Wallet)
    (h : finalizeStrandedTopup db eid tid = .ok (db',settled)) :
    viewOf c db' wallet = viewOf c db wallet ∨
    ∃ event balance, (viewOf c db wallet).row = some event ∧ event.source = .stranded ∧
      viewOf c db' wallet = { viewOf c db wallet with
        row := some { event with source := .reconciled, newBalance := balance }
        credited := (viewOf c db wallet).credited+if event.poolID = c.poolID then event.amount else 0 } := by
  obtain ⟨event,balance,hev,hst,hc,rfl,heve⟩ := finalizeStrandedTopup_ok h
  have hcred := creditedTo_credited hc c.poolID c.slot
  have hrow := heve c.slot
  by_cases hk : c.slot = (tid,eid)
  · right
    refine ⟨event,balance,by simpa only [viewOf,hk] using hev,hst,?_⟩
    rw [if_pos hk] at hrow
    have hiff : (event.poolID = c.poolID ∧ some (tid,eid) = some c.slot) ↔
        event.poolID = c.poolID := by simp [hk]
    simp only [viewOf,hrow,hcred,hiff]
  · left
    have hne : ¬ (event.poolID = c.poolID ∧ some (tid,eid) = some c.slot) := by
      rintro ⟨_,h⟩
      exact hk (Option.some.inj h).symm
    rw [if_neg hk] at hrow
    rw [if_neg hne,add_zero] at hcred
    simp only [viewOf,hrow,hcred]

lemma fundPoolTx_exists (h : fundPoolTx db args = .error .fundEventExists) :
    (db.events.get? args.slot).isSome := by
  unfold fundPoolTx at h
  split at h
  · next e he =>
    obtain rfl : e = .fundEventExists := by simpa using h
    rcases topupPoolInTx_error he with h | h <;> cases h
  · next db₁ balance ht =>
    have hev := (topupPoolInTx_ok ht).1
    dsimp only at h
    split at h
    · next hnone =>
      obtain ⟨q,hq⟩ := insertFundEvent_none.mp hnone
      rw [hev] at hq
      have hq' : db.events.get? args.slot = some q := hq
      rw [hq']
      rfl
    · simp at h

end LurusHub.TopupProtocol
