import LurusHub.TopupProtocol

/-! Wallet and pool agree on a topup key once its requests have answered, as long as no request
reverts a debit that a twin has credited or stranded, or credits a debit that a twin has refunded.
-/
namespace LurusHub.TopupAgreement
open CreditPool FundEvent Transition TopupProtocol KeyedTable Option List Pc
open PoolSystem (Act Call Effect step_effect fund_origin)

def walletNet (c : Intent) (w : Wallet) : ℤ :=
  ((w.get? c.key).map (·.amount)).getD 0+((w.get? c.revertRef).map (·.amount)).getD 0

/-- The pool got nothing or the amount, the amount exactly when the wallet paid it; an open stranded
event is neither. -/
def Agreement (c : Intent) (s : State) : Prop :=
  ((view c s).credited = 0 ∨ (view c s).credited = c.amount) ∧
  ((∀ event ∈ (view c s).row, event.source ≠ .stranded) →
    ((view c s).credited = c.amount ↔ walletNet c s.wallet = -c.amount))
  deriving Decidable

def Quiescent (s : State) : Prop := ∀ pc ∈ s.requests, pc.isDone = true
  deriving Decidable

structure Fresh (c : Intent) (s : State) : Prop where
  row : (view c s).row = none
  credited : (view c s).credited = 0
  debit : s.wallet.get? c.key = none
  refund : s.wallet.get? c.revertRef = none
  requests : s.requests = []
  funds : ∀ args, Call.fund args ∈ s.system.calls → args.slot ≠ c.slot

/-- Only the topup requests write rows under their key; sweeps may close them. -/
def LeavesKey (c : Intent) : Act → Prop
  | .fundPoolIdempotentWithReason args _ => args.slot ≠ c.slot
  | .recordTerminalFundEvent _ tenantID eventID _ _ => (tenantID,eventID) ≠ c.slot
  | .recordStrandedTopup eventID tenantID _ _ => (tenantID,eventID) ≠ c.slot
  | _ => True

/-- The condition on one call of a request, from the state before it. -/
def CleanCall (v : View) (fails : Bool) : Pc → Prop
  -- a revert goes through only while the key is free or already marked reverted
  | .revert _ _ _ => fails = false → ∀ event ∈ v.row, event.source = .reverted
  -- a credit into the free key only while its debit stands
  | .fundTx => fails = false → v.row = none → v.refunded = false
  -- a free key whose debit stands is recorded stranded; a refunded one is not
  | .recordStranded _ _ => v.row = none → fails = v.refunded
  | _ => True

def CleanStep (c : Intent) (s : State) : Label → Prop
  | .start => True
  | .system a => LeavesKey c a
  | .request i fails => ∀ pc ∈ s.requests[i]?, CleanCall (view c s) fails pc

instance (c : Intent) : ∀ a, Decidable (LeavesKey c a)
  | .fundPoolIdempotentWithReason .. | .recordTerminalFundEvent .. | .recordStrandedTopup .. =>
    inferInstanceAs (Decidable (_ ≠ c.slot))
  | .createTenantCreditPool .. | .debitPool .. | .overdraftDebitPool .. | .creditPoolAdjustment ..
  | .tryFinalizeStrandedTopup .. | .reconcileStrandedTopups | .resetDuePools _ | .advance _ | .fault _ =>
    inferInstanceAs (Decidable True)

instance (v : View) (fails : Bool) : ∀ pc, Decidable (CleanCall v fails pc)
  | .revert _ _ _ => inferInstanceAs (Decidable (_ → ∀ event ∈ v.row, _))
  | .fundTx => inferInstanceAs (Decidable (_ → _ → _))
  | .recordStranded _ _ => inferInstanceAs (Decidable (_ → _))
  | .lookup | .debitWallet | .tryFinalize | .finalize | .reread | .fundFast | .refetch
  | .recordTerminal _ | .done _ => inferInstanceAs (Decidable True)

instance (c : Intent) (s : State) : ∀ l, Decidable (CleanStep c s l)
  | .start => inferInstanceAs (Decidable True)
  | .system a => inferInstanceAs (Decidable (LeavesKey c a))
  | .request i fails => inferInstanceAs (Decidable (∀ pc ∈ s.requests[i]?, CleanCall (view c s) fails pc))

/-! The abstract ledger of one key. -/

def RowMoney (c : Intent) (v : View) : FundSource → Prop
  | .adminTopup | .reconciled => v.credited = c.amount ∧ v.refunded = false
  | .stranded => v.credited = 0 ∧ v.refunded = false
  | .reverted => v.credited = 0 ∧ v.refunded = true
  | .manuallyClosed | .other _ => False

structure Consistent (c : Intent) (v : View) : Prop where
  refund : v.refunded = true → v.debited = true
  free : v.row = none → v.credited = 0
  taken : ∀ event, v.row = some event → event.poolID = c.poolID ∧ event.amount = c.amount ∧
    v.debited = true ∧ RowMoney c v event.source

inductive ViewStep (c : Intent) (v : View) : View → Prop
  | same : ViewStep c v v
  | debit : ViewStep c v { v with debited := true }
  | refund (hd : v.debited = true) (hrow : ∀ event ∈ v.row, event.source = .reverted) :
      ViewStep c v { v with refunded := true }
  | strand {event : CreditPoolFundEvent} (hd : v.debited = true) (hrow : v.row = none)
      (hp : event.poolID = c.poolID) (ha : event.amount = c.amount) (hs : event.source = .stranded)
      (hr : v.refunded = false) : ViewStep c v { v with row := some event }
  | mark {event : CreditPoolFundEvent} (hd : v.debited = true) (hrow : v.row = none)
      (hp : event.poolID = c.poolID) (ha : event.amount = c.amount) (hs : event.source = .reverted)
      (hr : v.refunded = true) : ViewStep c v { v with row := some event }
  | credit {event : CreditPoolFundEvent} (hd : v.debited = true) (hrow : v.row = none)
      (hp : event.poolID = c.poolID) (ha : event.amount = c.amount) (hs : event.source = .adminTopup)
      (hr : v.refunded = false) :
      ViewStep c v { v with row := some event, credited := v.credited+c.amount }
  | close {event : CreditPoolFundEvent} {balance : ℤ} (hrow : v.row = some event)
      (hs : event.source = .stranded) :
      ViewStep c v { v with
        row := some { event with source := .reconciled, newBalance := balance }
        credited := v.credited+if event.poolID = c.poolID then event.amount else 0 }

variable {c : Intent}

lemma consistent_viewStep (h : Consistent c v) (hs : ViewStep c v v') : Consistent c v' := by
  cases hs with
  | same => exact h
  | debit =>
    refine ⟨fun _ => rfl,h.free,?_⟩
    intro event hrow
    obtain ⟨hp,ha,_,hmon⟩ := h.taken event hrow
    refine ⟨hp,ha,rfl,?_⟩
    cases hsrc : event.source <;> simp_all [RowMoney]
  | refund hd hrow =>
    refine ⟨fun _ => hd,h.free,?_⟩
    intro event hev
    obtain ⟨hp,ha,_,hmon⟩ := h.taken event hev
    have hsrc := hrow event hev
    rw [hsrc] at hmon ⊢
    exact ⟨hp,ha,hd,hmon.1,rfl⟩
  | strand hd hrow hp ha hs hr | mark hd hrow hp ha hs hr =>
    refine ⟨h.refund,by simp,?_⟩
    intro e he
    cases he
    rw [hs]
    exact ⟨hp,ha,hd,h.free hrow,hr⟩
  | credit hd hrow hp ha hs hr =>
    refine ⟨h.refund,by simp,?_⟩
    intro e he
    cases he
    rw [hs]
    refine ⟨hp,ha,hd,?_,hr⟩
    simp [h.free hrow]
  | close hrow hs =>
    refine ⟨h.refund,by simp,?_⟩
    intro e he
    cases he
    obtain ⟨hp,ha,hd,hmon⟩ := h.taken _ hrow
    rw [hs] at hmon
    refine ⟨hp,ha,hd,?_,hmon.2⟩
    simp [hmon.1,hp,ha]

lemma viewStep_mono (hs : ViewStep c v v') : (v.debited → v'.debited) ∧ (v.refunded → v'.refunded) ∧
    (v.row.isSome → v'.row.isSome) := by
  cases hs <;> simp_all

/-! Requests. -/

/-- A request that still owes the debit an outcome. -/
def Holds : Pc → Bool
  | .tryFinalize | .fundFast | .fundTx | .revert _ _ _ | .recordStranded _ _ => true
  | _ => false

/-- What is known of the key when a request is about to make a call. -/
def Fact (c : Intent) (v : View) : Pc → Prop
  | .done _ => True
  | .lookup | .debitWallet => c.key ≠ ""
  | .tryFinalize | .fundFast | .fundTx => c.key ≠ "" ∧ v.debited = true
  | .finalize | .reread | .refetch => c.key ≠ "" ∧ v.debited = true ∧ v.row.isSome
  | .revert strandedEventID terminal _ =>
    c.key ≠ "" ∧ v.debited = true ∧ strandedEventID = c.key ∧ terminal = true
  | .recordStranded strandedEventID _ => c.key ≠ "" ∧ v.debited = true ∧ strandedEventID = c.key
  | .recordTerminal _ => c.key ≠ "" ∧ v.debited = true ∧ v.refunded = true

lemma fact_mono (h : Fact c v pc) (hs : ViewStep c v v') : Fact c v' pc := by
  obtain ⟨hd,hr,hrow⟩ := viewStep_mono hs
  cases pc with
  | done | lookup | debitWallet => exact h
  | tryFinalize | fundFast | fundTx => exact ⟨h.1,hd h.2⟩
  | finalize | reread | refetch => exact ⟨h.1,hd h.2.1,hrow h.2.2⟩
  | revert | recordStranded => exact ⟨h.1,hd h.2.1,h.2.2⟩
  | recordTerminal => exact ⟨h.1,hd h.2.1,hr h.2.2⟩

theorem onFundEventExists_done (h : Consistent c v)
    (hrow : v.row = some event) : ∃ answer, onFundEventExists c event = .done answer := by
  obtain ⟨hp,ha,_,hmon⟩ := h.taken event hrow
  unfold onFundEventExists classifyPoolTopupKey
  cases hs : event.source with
  | adminTopup => simp [hp,ha]
  | reverted | stranded | reconciled | manuallyClosed => simp
  | other label => rw [hs] at hmon; exact hmon.elim

lemma row_of_read {fails : Bool} (h : (if fails then none else db.events.get? c.slot) = some event) :
    (viewOf c db wallet).row = some event := by
  cases fails with
  | true => cases h
  | false => exact h

structure Outcome (c : Intent) (v : View) (pc : Pc) (v' : View) (pc' : Pc) : Prop where
  move : ViewStep c v v'
  fact : Fact c v' pc'
  held : Holds pc' = true ∨ v'.refunded = true ∨ v'.row.isSome ∨ (Holds pc = false ∧ v' = v)

lemma Outcome.rowed (hf : Fact c v pc') (hrow : v.row.isSome) :
    Outcome c v pc v pc' := ⟨.same,hf,.inr (.inr (.inl hrow))⟩

lemma Outcome.holding (hf : Fact c v pc') (h : Holds pc') : Outcome c v pc v pc' := ⟨.same,hf,.inl h⟩

lemma Outcome.idle (hf : Fact c v pc') (h : Holds pc = false) :
    Outcome c v pc v pc' := ⟨.same,hf,.inr (.inr (.inr ⟨h,rfl⟩))⟩

lemma revertRef_ne_key : c.revertRef ≠ c.key := by
  intro h
  have hlen := congrArg String.length h
  simp [Intent.revertRef] at hlen

@[simp] lemma get?_apply (w : Wallet) :
    (w.apply m).get? k = if k = m.ref then some ((w.get? k).getD m) else w.get? k := by
  unfold Wallet.apply
  cases h : w.insert? m with
  | none =>
    obtain ⟨q,hq⟩ := insert?_eq_none.mp h
    rw [getD_none]
    split
    · next hk => rw [hk,hq]; rfl
    · rfl
  | some w' =>
    rw [getD_some,get?_insert? h]
    split
    · next hk => rw [hk,(insert?_eq_some.mp h).1]; rfl
    · rfl

theorem amount_apply {w : Wallet} {m m' : WalletMovement}
    (h : ∀ m, w.get? k = some m → m.amount = x) (hnew : k = m.ref → m.amount = x)
    (hm : (w.apply m).get? k = some m') : m'.amount = x := by
  rw [get?_apply] at hm
  split at hm
  · next hk =>
    cases hkey : w.get? k with
    | none => rw [hkey] at hm; obtain rfl := some.inj hm; exact hnew hk
    | some _ => rw [hkey] at hm; obtain rfl := some.inj hm; exact h _ hkey
  · exact h m' hm

lemma view_debit : viewOf c db (w.apply ⟨c.key,x⟩) = { viewOf c db w with debited := true } := by
  simp [viewOf,revertRef_ne_key]

lemma view_refund :
    viewOf c db (w.apply ⟨c.revertRef,x⟩) = { viewOf c db w with refunded := true } := by
  simp [viewOf,(revertRef_ne_key).symm]

def Reaches (c : Intent) (db : DB) (wallet : Wallet) (pc : Pc) (r : DB × Wallet × Pc) : Prop :=
  Outcome c (viewOf c db wallet) pc (viewOf c r.1 r.2.1) r.2.2

/-- The call of a clean run ends in an outcome. -/
abbrev Runs (c : Intent) (db : DB) (wallet : Wallet) (fails : Bool) (pc : Pc) : Prop :=
  Fact c (viewOf c db wallet) pc → CleanCall (viewOf c db wallet) fails pc →
    Reaches c db wallet pc (pc.exec c db wallet fails)

lemma reaches_lookup : Runs c db wallet fails .lookup := by
  intro hf _
  have hdebit : Outcome c (viewOf c db wallet) .lookup (viewOf c db wallet) .debitWallet := .idle hf rfl
  have hdone : ∀ answer, Outcome c (viewOf c db wallet) .lookup (viewOf c db wallet) (.done answer) :=
    fun _ => .idle trivial rfl
  cases fails with
  | true => exact hdone _
  | false =>
    simp only [exec,Bool.false_eq_true,if_false]
    split
    · exact hdebit
    · unfold Reaches beforeDebit
      split
      · exact hdone _
      · exact hdone _
      · exact hdone _
      · exact hdone _
      · exact hdebit

lemma reaches_debitWallet : Runs c db wallet fails .debitWallet := by
  intro hf _
  cases fails with
  | true => exact .idle trivial rfl
  | false =>
    simp only [exec,Bool.false_eq_true,if_false,Reaches,view_debit]
    exact ⟨.debit,⟨hf,rfl⟩,.inl rfl⟩

lemma row_of_strandedLookup
    (h : strandedLookup db c.key c.tenantID = some event) : (viewOf c db wallet).row = some event := by
  exact (filter_eq_some_iff.mp h).1

lemma reaches_tryFinalize : Runs c db wallet fails .tryFinalize := by
  intro hf _
  cases fails with
  | true => exact .holding hf rfl
  | false =>
    simp only [exec,Bool.false_eq_true,if_false]
    split
    · exact .holding hf rfl
    · next event hev =>
      have hrow : (viewOf c db wallet).row.isSome := by rw [row_of_strandedLookup hev]; rfl
      split
      · exact .rowed trivial hrow
      · split
        · exact .rowed trivial hrow
        · exact .rowed ⟨hf.1,hf.2,hrow⟩ hrow

lemma viewStep_finalized (c : Intent) (wallet : Wallet)
    (h : finalizeStrandedTopup db eventID tenantID = .ok (db',settled)) :
    ViewStep c (viewOf c db wallet) (viewOf c db' wallet) := by
  rcases view_finalized c wallet h with heq | ⟨event,balance,hrow,hs,heq⟩
  · rw [heq]
    exact .same
  · rw [heq]
    exact .close hrow hs

lemma reaches_finalize : Runs c db wallet fails .finalize := by
  intro hf _
  cases fails with
  | true => exact .rowed trivial hf.2.2
  | false =>
    simp only [exec,Bool.false_eq_true,if_false]
    split
    · next db' settled hfin =>
      have hmove := viewStep_finalized c wallet hfin
      exact ⟨hmove,trivial,.inr (.inr (.inl ((viewStep_mono hmove).2.2 hf.2.2)))⟩
    · exact .rowed hf hf.2.2
    · exact .rowed trivial hf.2.2

lemma reaches_reread : Runs c db wallet fails .reread := by
  intro hf _
  simp only [exec]
  split
  · exact .rowed trivial hf.2.2
  · exact .rowed trivial hf.2.2

lemma reaches_fundFast (hcon : Consistent c (viewOf c db wallet)) : Runs c db wallet fails .fundFast := by
  intro hf _
  simp only [exec]
  split
  · exact .holding ⟨hf.1,hf.2,rfl,rfl⟩ rfl
  · split
    · next existing hex =>
      have hrow : (viewOf c db wallet).row = some existing := row_of_read hex
      obtain ⟨answer,hdone⟩ := onFundEventExists_done hcon hrow
      rw [hdone]
      exact .rowed trivial (by rw [hrow]; rfl)
    · exact .holding hf rfl

lemma reaches_fundTx : Runs c db wallet fails .fundTx := by
  intro hf hg
  have hrevert : ∀ answer, Outcome c (viewOf c db wallet) .fundTx (viewOf c db wallet)
      (.revert c.key true answer) := fun _ => .holding ⟨hf.1,hf.2,rfl,rfl⟩ rfl
  cases fails with
  | true => exact hrevert _
  | false =>
    simp only [exec]
    split
    · next db' event hfund =>
      obtain ⟨hrow,hp,ha,hs,heq⟩ := view_funded wallet hfund
      unfold Reaches
      rw [heq]
      exact ⟨.credit hf.2 hrow hp ha hs (hg rfl hrow),trivial,.inr (.inr (.inl rfl))⟩
    · next hexi =>
      have hrow := fundPoolTx_exists hexi
      exact .rowed ⟨hf.1,hf.2,hrow⟩ hrow
    · exact hrevert _

lemma reaches_refetch (hcon : Consistent c (viewOf c db wallet)) : Runs c db wallet fails .refetch := by
  intro hf _
  simp only [exec]
  split
  · next race hrace =>
    obtain ⟨answer,hdone⟩ := onFundEventExists_done hcon (row_of_read hrace)
    rw [hdone]
    exact .rowed trivial hf.2.2
  · exact .rowed ⟨hf.1,hf.2.1,rfl,rfl⟩ hf.2.2

lemma reaches_revert : Runs c db wallet fails (.revert strandedEventID terminal answer) := by
  rintro ⟨hkey,hd,hid,hterm⟩ hg
  cases fails with
  | true => exact .holding ⟨hkey,hd,hid⟩ rfl
  | false =>
    simp only [exec,Bool.false_eq_true,if_false,Reaches,view_refund,hterm]
    exact ⟨.refund hd (hg rfl),⟨hkey,hd,rfl⟩,.inr (.inl rfl)⟩

lemma reaches_recordStranded (hpos : 0 < c.amount) :
    Runs c db wallet fails (.recordStranded strandedEventID answer) := by
  rintro ⟨hkey,hd,rfl⟩ hg
  have hargs : ¬ (c.key = "" ∨ c.amount ≤ 0) := by
    push Not
    exact ⟨hkey,hpos⟩
  cases hrow : (viewOf c db wallet).row with
  | none =>
    have hr := hg hrow
    cases fails with
    | true => exact ⟨.same,trivial,.inr (.inl hr.symm)⟩
    | false =>
      simp only [exec,Bool.false_eq_true,if_false,recordStrandedTopup,if_neg hargs,PoolSystem.commit,Reaches]
      rw [view_claimed (claimed_getD db _) rfl,hrow]
      exact ⟨.strand hd hrow rfl rfl rfl hr.symm,trivial,.inr (.inr (.inl rfl))⟩
  | some event =>
    have hsome : (viewOf c db wallet).row.isSome := by rw [hrow]; rfl
    cases fails with
    | true => exact .rowed trivial hsome
    | false =>
      simp only [exec,Bool.false_eq_true,if_false,recordStrandedTopup,if_neg hargs,PoolSystem.commit,Reaches]
      rw [view_claimed (claimed_getD db _) rfl,or_of_isSome hsome]
      exact .rowed trivial hsome

lemma reaches_recordTerminal : Runs c db wallet fails (.recordTerminal answer) := by
  rintro ⟨_,hd,hr⟩ _
  have hsame : Outcome c (viewOf c db wallet) (.recordTerminal answer) (viewOf c db wallet)
      (.done answer) := ⟨.same,trivial,.inr (.inl hr)⟩
  cases fails with
  | true => exact hsame
  | false =>
    simp only [exec,Bool.false_eq_true,if_false,Reaches]
    rcases PoolSystem.commit_cases db (recordTerminalFundEvent db c.poolID c.tenantID c.key c.amount
      poolTopupFundSourceReverted) with h | h
    · rw [h]
      exact hsame
    · rw [view_claimed (recordTerminalFundEvent_ok h) rfl]
      cases hrow : (viewOf c db wallet).row with
      | none => exact ⟨.mark hd hrow rfl rfl rfl hr,trivial,.inr (.inl hr)⟩
      | some event =>
        have heta : { viewOf c db wallet with row := some event } = viewOf c db wallet := by
          rw [← hrow]
        rw [some_or,heta]
        exact hsame

lemma exec_reaches (hpos : 0 < c.amount) (hcon : Consistent c (viewOf c db wallet)) (pc : Pc) :
    Runs c db wallet fails pc := by
  cases pc with
  | lookup => exact reaches_lookup
  | debitWallet => exact reaches_debitWallet
  | tryFinalize => exact reaches_tryFinalize
  | finalize => exact reaches_finalize
  | reread => exact reaches_reread
  | fundFast => exact reaches_fundFast hcon
  | fundTx => exact reaches_fundTx
  | refetch => exact reaches_refetch hcon
  | revert => exact reaches_revert
  | recordStranded => exact reaches_recordStranded hpos
  | recordTerminal => exact reaches_recordTerminal
  | done answer => exact fun _ _ => .idle trivial rfl

lemma exec_wallet (c : Intent) (db : DB) (wallet : Wallet) (fails : Bool) (pc : Pc) :
    (pc.exec c db wallet fails).2.1 = wallet ∨
    (pc.exec c db wallet fails).2.1 = wallet.apply ⟨c.key,-c.amount⟩ ∨
    (pc.exec c db wallet fails).2.1 = wallet.apply ⟨c.revertRef,c.amount⟩ := by
  cases pc with
  | debitWallet | revert => cases fails <;> simp [exec]
  | lookup | tryFinalize | finalize | reread | fundFast | fundTx | refetch | recordStranded
  | recordTerminal | done =>
    left
    simp only [exec]
    repeat' split
    all_goals rfl

/-! The rest of the pool system. -/

lemma view_of_same (hrow : db'.events.get? c.slot = db.events.get? c.slot)
    (hcred : creditedTo db' c.poolID c.slot = creditedTo db c.poolID c.slot) :
    viewOf c db' wallet = viewOf c db wallet := by
  simp only [viewOf,hrow,hcred]

lemma view_claimed_other (hc : Claimed db db' event) (hne : event.slot ≠ c.slot) :
    viewOf c db' wallet = viewOf c db wallet := by
  refine view_of_same ?_ (creditedTo_of_draws hc.draws _ _)
  rcases hc.events with hins | ⟨_,hsame⟩
  · rw [get?_insert? hins,if_neg hne.symm]
  · rw [hsame]

theorem viewStep_system {s : PoolSystem.State}
    (hfun : ∀ args, Call.fund args ∈ s.calls → args.slot ≠ c.slot) (hlea : LeavesKey c a) :
    ViewStep c (viewOf c s.db wallet) (viewOf c (PoolSystem.step s a).db wallet) := by
  have hsame : ∀ db', viewOf c db' wallet = viewOf c s.db wallet →
      ViewStep c (viewOf c s.db wallet) (viewOf c db' wallet) := by
    intro db' h
    rw [h]
    exact .same
  cases step_effect s a with
  | same he => rw [he]; exact .same
  | created _ he =>
    obtain ⟨pool,pools,_,hdb,_⟩ := createTenantCreditPool_ok he
    rw [hdb]
    exact .same
  | debited _ hev he =>
    exact hsame _ (view_of_same (by rw [hev]) (creditedTo_debited he _ _))
  | adjusted _ _ hev he =>
    refine hsame _ (view_of_same (by rw [hev]) ?_)
    simp [creditedTo_credited he]
  | terminal ha he =>
    subst ha
    exact hsame _ (view_claimed_other (recordTerminalFundEvent_ok he) hlea)
  | stranded ha he =>
    subst ha
    exact hsame _ (view_claimed_other (recordStrandedTopup_ok he).2 hlea)
  | funded hcall _ he =>
    obtain ⟨hc,hins,hslot,_⟩ := fundPoolTx_ok he
    have hne := hfun _ hcall
    refine hsame _ (view_of_same ?_ ?_)
    · rw [get?_insert? hins,hslot,if_neg (Ne.symm hne)]
    · rw [creditedTo_credited hc]
      simp [hne]
  | finalized _ he => exact viewStep_finalized c wallet he
  | reset _ _ _ he =>
    obtain ⟨_,hev,_,draw,hdra,_,_,hori⟩ := resetOnePoolInTx_some he
    refine hsame _ (view_of_same (by rw [hev]) ?_)
    rw [creditedTo_append _ _ draw _ _ hdra]
    simp [hori]

/-! The invariant of clean runs. -/

structure Inv (c : Intent) (s : State) : Prop where
  consistent : Consistent c (view c s)
  facts : ∀ pc ∈ s.requests, Fact c (view c s) pc
  /-- A debit that stands with no row behind it is in the hands of a request. -/
  covered : (view c s).debited = true → (view c s).refunded = false → (view c s).row = none →
    ∃ pc ∈ s.requests, Holds pc = true
  funds : ∀ args, Call.fund args ∈ s.system.calls → args.slot ≠ c.slot
  debits : ∀ m, s.wallet.get? c.key = some m → m.amount = -c.amount
  refunds : ∀ m, s.wallet.get? c.revertRef = some m → m.amount = c.amount

lemma inv_fresh (h : Fresh c s) : Inv c s where
  consistent := by
    refine ⟨?_,fun _ => h.credited,?_⟩
    · intro hr
      simp [view,viewOf,h.refund] at hr
    · intro event hrow
      rw [h.row] at hrow
      cases hrow
  facts := by simp [h.requests]
  covered := by
    intro hd
    simp [view,viewOf,h.debit] at hd
  funds := h.funds
  debits := by simp [h.debit]
  refunds := by simp [h.refund]

lemma first_fact : Fact c v (Pc.first c) := by
  unfold first
  split
  · trivial
  · next hv =>
    rintro hkey
    rw [hkey] at hv
    cases hv

lemma inv_start (h : Inv c s) : Inv c (step c s .start) := by
  refine ⟨h.consistent,forall_mem_append.mpr ⟨h.facts,forall_mem_singleton.mpr first_fact⟩,?_,h.funds,h.debits,h.refunds⟩
  intro hd hr hrow
  obtain ⟨pc,hpc,hh⟩ := h.covered hd hr hrow
  exact ⟨pc,mem_append_left _ hpc,hh⟩

lemma inv_system (h : Inv c s) (hlea : LeavesKey c a) : Inv c (step c s (.system a)) := by
  have hmove : ViewStep c (view c s) (view c (step c s (.system a))) := viewStep_system h.funds hlea
  refine ⟨consistent_viewStep h.consistent hmove,fun pc hpc => fact_mono (h.facts pc hpc) hmove,?_,?_,
    h.debits,h.refunds⟩
  · intro hd hr hrow
    rw [← not_isSome_iff_eq_none] at hrow
    exact h.covered hd hr (not_isSome_iff_eq_none.mp fun hsome => hrow ((viewStep_mono hmove).2.2 hsome))
  · intro args hcall
    rcases fund_origin hcall with hc | ⟨_,rfl⟩
    · exact h.funds args hc
    · exact hlea

lemma exists_holds_set {requests : List Pc} (hi : requests[i]? = some pc)
    (hpc : Holds pc = false) (h : ∃ q ∈ requests, Holds q) :
    ∃ q ∈ requests.set i pc', Holds q := by
  obtain ⟨q,hq,hh⟩ := h
  obtain ⟨j,hj⟩ := mem_iff_getElem?.mp hq
  have hne : i ≠ j := by
    rintro rfl
    obtain rfl : pc = q := some.inj (hi.symm.trans hj)
    rw [hpc] at hh
    cases hh
  exact ⟨q,mem_iff_getElem?.mpr ⟨j,by rw [getElem?_set_ne hne,hj]⟩,hh⟩

lemma mem_set_self {requests : List Pc} (hi : requests[i]? = some pc) : pc' ∈ requests.set i pc' := by
  obtain ⟨hlt,_⟩ := List.getElem?_eq_some_iff.mp hi
  exact List.mem_iff_getElem?.mpr ⟨i,by simp [List.getElem?_set_self hlt]⟩

lemma inv_request (hpos : 0 < c.amount) (h : Inv c s)
    (hg : CleanStep c s (.request i fails)) : Inv c (step c s (.request i fails)) := by
  simp only [step]
  split
  · exact h
  · next pc hi =>
    have hout := exec_reaches hpos h.consistent pc (h.facts pc (mem_of_getElem? hi)) (hg pc hi)
    have hwallet := exec_wallet c s.system.db s.wallet fails pc
    generalize pc.exec c s.system.db s.wallet fails = r at hout hwallet ⊢
    obtain ⟨db,wallet,pc'⟩ := r
    refine ⟨consistent_viewStep h.consistent hout.move,fun q hq => ?_,fun hd hr hrow => ?_,h.funds,
      fun m hm => ?_,fun m hm => ?_⟩
    · rcases mem_or_eq_of_mem_set hq with hq | rfl
      · exact fact_mono (h.facts q hq) hout.move
      · exact hout.fact
    · rcases hout.held with hh | hh | hh | ⟨hidle,hsame⟩
      · exact ⟨_,mem_set_self hi,hh⟩
      · exact absurd (hr.symm.trans hh) (by simp)
      · have hrow' : (viewOf c db wallet).row = none := hrow
        rw [hrow'] at hh
        cases hh
      · refine exists_holds_set hi hidle (h.covered ?_ ?_ ?_)
        · exact (congrArg View.debited hsame).symm.trans hd
        · exact (congrArg View.refunded hsame).symm.trans hr
        · exact (congrArg View.row hsame).symm.trans hrow
    · rcases hwallet with rfl | rfl | rfl
      · exact h.debits m hm
      · exact amount_apply h.debits (fun _ => rfl) hm
      · exact amount_apply h.debits (fun hkey => absurd hkey.symm revertRef_ne_key) hm
    · rcases hwallet with rfl | rfl | rfl
      · exact h.refunds m hm
      · exact amount_apply h.refunds (fun hkey => absurd hkey revertRef_ne_key) hm
      · exact amount_apply h.refunds (fun _ => rfl) hm

lemma inv_step (hpos : 0 < c.amount) (s : State) (l : Label) (h : Inv c s)
    (hg : CleanStep c s l) : Inv c (step c s l) := by
  cases l with
  | start => exact inv_start h
  | request i fails => exact inv_request hpos h hg
  | system a => exact inv_system h hg

theorem walletNet_eq_iff (hpos : 0 < c.amount) (h : Inv c s) :
    walletNet c s.wallet = -c.amount ↔ (view c s).debited ∧ (view c s).refunded = false := by
  have hback := h.consistent.refund
  simp only [walletNet,view,viewOf] at hback ⊢
  cases hd : s.wallet.get? c.key with
  | none =>
    cases hr : s.wallet.get? c.revertRef with
    | none => simp; omega
    | some m => simp [hd,hr] at hback
  | some m =>
    have hm := h.debits m hd
    cases hr : s.wallet.get? c.revertRef with
    | none => simp [hm]
    | some m' =>
      have hm' := h.refunds m' hr
      simp [hm]
      omega

lemma agreement_of_inv (hpos : 0 < c.amount) (h : Inv c s) (hq : Quiescent s) : Agreement c s := by
  have hnet := walletNet_eq_iff hpos h
  unfold Agreement
  cases hrow : (view c s).row with
  | none =>
    have hzero := h.consistent.free hrow
    refine ⟨.inl hzero,fun _ => iff_of_false (by omega) ?_⟩
    rw [hnet]
    rintro ⟨hd,hr⟩
    obtain ⟨pc,hpc,hh⟩ := h.covered hd hr hrow
    have hdone := hq pc hpc
    cases pc <;> simp [Holds,isDone] at hh hdone
  | some event =>
    obtain ⟨_,_,hd,hmon⟩ := h.consistent.taken event hrow
    have hopen : (∀ e ∈ some event, e.source ≠ .stranded) ↔ event.source ≠ .stranded := by simp
    rw [hnet,hopen]
    cases hs : event.source with
    | adminTopup | reconciled =>
      rw [hs] at hmon
      exact ⟨.inr hmon.1,fun _ => iff_of_true hmon.1 ⟨hd,hmon.2⟩⟩
    | stranded =>
      rw [hs] at hmon
      exact ⟨.inl hmon.1,fun hne => absurd rfl hne⟩
    | reverted =>
      rw [hs] at hmon
      refine ⟨.inl hmon.1,fun _ => iff_of_false (by rw [hmon.1]; omega) ?_⟩
      rintro ⟨_,hr⟩
      rw [hmon.2] at hr
      cases hr
    | manuallyClosed | other => rw [hs] at hmon; exact hmon.elim

theorem topup_agrees (c : Intent) (hpos : 0 < c.amount) (s : State) (hfresh : Fresh c s)
    (labels : List Label) (hclean : Along (step c) (CleanStep c) s labels)
    (hq : Quiescent (run (step c) s labels)) : Agreement c (run (step c) s labels) :=
  agreement_of_inv hpos (run_invariant (inv_step hpos) (inv_fresh hfresh) hclean) hq

def sixty : Intent := { tenantID := "t", poolID := 1, key := "k", amount := 60 }

def unused : State := ⟨PoolSystem.init,.empty,[]⟩

lemma unused_fresh : Fresh sixty unused where
  row := rfl
  credited := rfl
  debit := rfl
  refund := rfl
  requests := rfl
  funds := by simp [unused,PoolSystem.init]

/-- Two requests with one key, both past every read of the slot before either credits; then the
first credits, and the second goes on. -/
def twins (maxBalance : Int64) (rest : List Label) : List Label :=
  [.system (.createTenantCreditPool "t" 1 maxBalance .monthly 80 0),.start,.start,
   .request 0 false,.request 1 false,.request 0 false,.request 1 false,
   .request 0 false,.request 1 false,.request 0 false,.request 1 false,
   .request 0 false]++rest

theorem topup_agrees_twins :
    Along (step sixty) (CleanStep sixty) unused (twins 200 [.request 1 false,.request 1 false]) ∧
    (run (step sixty) unused (twins 200 [.request 1 false,.request 1 false])).requests =
      [.done (.toppedUp 60),.done (.replayed 60)] ∧
    Agreement sixty (run (step sixty) unused (twins 200 [.request 1 false,.request 1 false])) :=
  ⟨by decide,by decide,topup_agrees sixty (by decide) unused unused_fresh _ (by decide) (by decide)⟩

theorem twins_disagree : Fresh sixty unused ∧
    (run (step sixty) unused (twins 100 [.request 1 false,.request 1 false,.request 1 false])).requests =
      [.done (.toppedUp 60),.done .ceilingExceeded] ∧ (view sixty (run (step sixty) unused
      (twins 100 [.request 1 false,.request 1 false,.request 1 false]))).credited = 60 ∧
    walletNet sixty (run (step sixty) unused
      (twins 100 [.request 1 false,.request 1 false,.request 1 false])).wallet = 0 ∧
    Quiescent (run (step sixty) unused (twins 100 [.request 1 false,.request 1 false,.request 1 false])) ∧
    ¬ Agreement sixty (run (step sixty) unused
      (twins 100 [.request 1 false,.request 1 false,.request 1 false])) :=
  ⟨unused_fresh,by decide,by decide,by decide,by decide,by decide⟩

end LurusHub.TopupAgreement
