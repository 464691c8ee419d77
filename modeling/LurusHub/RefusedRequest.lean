import LurusHub.PreConsume

/-! A refused request. The rollback of the token freeze is unconditional, the freeze is not: a
playground request never pays it, so one refused at the user debit is given the estimate. -/
namespace LurusHub.RefusedRequest
open CreditPool QuotaLedger PreConsume

/-- The request passes every gate in enforcing mode and comes to the debit of its user. -/
def ReachesUserDebit (env : PreEnv) (estimate : ℤ) (w : World) : Prop :=
  w.info.userId ≠ 0 ∧ 0 < estimate ∧
    ∃ info userQuota, Passes env estimate w info false userQuota ∧ trusted env userQuota info = false

/-- A playground request with a token row, refused at the user debit. -/
def PlaygroundRefused (env : PreEnv) (estimate : ℤ) (w : World) : Prop :=
  w.info.isPlayground = true ∧ (w.ledger.token? w.info.tokenId).isSome ∧
    ReachesUserDebit env estimate w ∧ UserDebitRefused env estimate w.info.userId w.ledger

def Untouched (env : PreEnv) (estimate : ℤ) (w : World) : Prop :=
  (preConsumeQuota env estimate w).2 ≠ none →
    (preConsumeQuota env estimate w).1.ledger.balances = w.ledger.balances

theorem freeze_error (hr : env.rollbackFails = false) (hpos : 0 < est)
    (h : freeze env est quota info advisory l = (l',.error e)) : l'.balances = l.balances ∨
      (info.isPlayground ∧ advisory = false ∧ info.userId ≠ 0 ∧
        UserDebitRefused env est info.userId l ∧
        l'.balances = l.balances.chargeToken info.tokenId (-est)) := by
  have hres := freeze_result env quota info advisory l hpos
  rw [h] at hres
  cases hres with
  | capped | tokenFailed => exact .inl rfl
  | @userRefused l₁ _ hfrozen huser hadv href =>
    have hback := rollbackTokenFreeze_balances info l₁ hr (Int.le_of_lt hpos)
    cases hplay : info.isPlayground with
    | true =>
      rw [hfrozen.playground hplay] at hback ⊢
      exact .inr ⟨rfl,hadv,huser,href,hback⟩
    | false =>
      refine .inl ?_
      rw [hback,hfrozen.balances]
      simp [tokenFreeze,hplay]

lemma freeze_playground (quota : ℤ) (hpos : 0 < est) (hplay : info.isPlayground) (huser : info.userId ≠ 0)
    (href : UserDebitRefused env est info.userId l) :
    ∃ e, freeze env est quota info false l = (rollbackTokenFreeze env info l est,.error e) := by
  have hres := freeze_result env quota info false l hpos
  cases hf : freeze env est quota info false l with
  | mk ledger r =>
    rw [hf] at hres
    cases hres with
    | capped _ h => simp [TokenCapped,hplay] at h
    | tokenFailed _ h => simp [TokenWriteLost,hplay] at h
    | tokenLost _ hadv | userLost _ _ hadv | shadowed _ _ hadv => cases hadv
    | provisioned _ h => exact absurd h huser
    | userRefused e hfrozen =>
      rw [hfrozen.playground hplay]
      exact ⟨e,rfl⟩
    | debited _ _ _ hpaid => exact absurd href hpaid

theorem refused_untouched_iff (env : PreEnv) (estimate : ℤ) (w : World) (hr : env.rollbackFails = false) :
    Untouched env estimate w ↔ ¬ PlaygroundRefused env estimate w := by
  constructor
  · rintro h ⟨hplay,hrow,⟨huser,hpos,info,userQuota,hpass,htru⟩,href⟩
    obtain ⟨hid,htok,hsame,-⟩ := hpass.staged.sameCaller
    rw [← hsame] at hplay
    rw [← hid] at href huser
    obtain ⟨e,hfre⟩ := freeze_playground userQuota hpos hplay huser href
    have hcall : preConsumeQuota env estimate w = (abandonPreAuth env.release
        ⟨rollbackTokenFreeze env info w.ledger estimate,{ info with userQuota },w.platform⟩,some e) := by
      obtain ⟨i,hstage,hmode⟩ := hpass.staged
      simp [preConsumeQuota,hstage,hmode,hpass.read,hpass.gates,htru,hpos,hfre]
    have hkept := h (by simp [hcall])
    rw [hcall,abandonPreAuth_ledger,rollbackTokenFreeze_balances info w.ledger hr (Int.le_of_lt hpos),
      Balances.chargeToken_eq_self] at hkept
    rcases hkept with hzero | hnone
    · omega
    · simp_all [Ledger.balances]
  · intro hok hne
    have hcall := preConsumeQuota_admission env estimate w
    generalize preConsumeQuota env estimate w = r at hcall hne ⊢
    cases hcall with
    | refused | unreadable => rfl
    | gated => rw [abandonPreAuth_ledger]
    | trusted | frozen => exact absurd rfl hne
    | unfrozen hpass htru hpos hfre =>
      obtain ⟨hid,htok,hsame,-⟩ := hpass.staged.sameCaller
      rw [abandonPreAuth_ledger]
      rcases freeze_error hr hpos hfre with hkept | ⟨hplay,rfl,huser,href,hback⟩
      · exact hkept
      · rw [hback,Balances.chargeToken_eq_self]
        -- with a token row this is the playground refusal
        by_contra hrow
        refine hok ⟨hsame ▸ hplay,?_,⟨hid ▸ huser,hpos,_,_,hpass,htru⟩,hid ▸ href⟩
        rw [← htok]
        cases ht : w.ledger.token? _ with
        | none => simp [Ledger.balances,ht] at hrow
        | some row => rfl

def drained : Ledger where
  users := fun id => if id = 1 then some 5 else none
  tokens := fun id => if id = 7 then some ⟨100,0,"acme"⟩ else none
  userBatch := fun _ => 0
  tokenBatch := fun _ => 0
  pools := .empty

def requestBy (isPlayground : Bool) : World where
  ledger := drained
  info := { userId := 1, tokenId := 7, isPlayground, tokenUnlimited := false, identityAccountID := 0 }
  platform := []

/-- The cached balance still covers the estimate the row no longer does. -/
def staleCache : PreEnv := { userQuota := some 100, trustQuota := 5000000 }

theorem refused_untouched_iff_limited :
    staleCache.rollbackFails = false ∧ Untouched staleCache 50 (requestBy false) :=
  ⟨rfl,(refused_untouched_iff staleCache 50 (requestBy false) rfl).2 fun h => by cases h.1⟩

theorem playground_refusal_credits :
    (preConsumeQuota staleCache 50 (requestBy true)).2 = some (.insufficientUserQuota 100 50) ∧
    (requestBy true).ledger.balances.token 7 = some (100,0) ∧
    (preConsumeQuota staleCache 50 (requestBy true)).1.ledger.balances.token 7 = some (150,-50) := by
  decide

end LurusHub.RefusedRequest
