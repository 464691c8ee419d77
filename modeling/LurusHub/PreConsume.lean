import LurusHub.QuotaLedger

/-! Admission of a relay request: `PreConsumeQuota` takes the platform hold, passes the local gates
and freezes the estimate on token and user. What it reads from outside, and every failing write, is
a field of `PreEnv`. -/
namespace LurusHub.PreConsume
open CreditPool QuotaLedger

structure RelayInfo where
  (userId tokenId : ℕ)
  (isPlayground tokenUnlimited : Bool)
  identityAccountID : ℤ
  platformPreAuthID : ℤ := 0
  platformGoverned : Bool := false
  walletAuthoritative : Bool := false
  userQuota : ℤ := 0
  finalPreConsumedQuota : ℤ := 0
  deriving DecidableEq, Repr

inductive Delivery
  | live | parked | lost
  deriving DecidableEq, Repr

inductive PlatformEvent
  | settle (preAuthID totalQuota : ℤ) (d : Delivery)
  | release (preAuthID : ℤ) (d : Delivery)
  | legacyDebit (totalQuota : ℤ) (d : Delivery)
  deriving DecidableEq, Repr

def PlatformEvent.exits (id : ℤ) : PlatformEvent → Bool
  | .settle preAuthID _ _ | .release preAuthID _ => preAuthID = id
  | .legacyDebit _ _ => false

structure World where
  ledger : Ledger
  info : RelayInfo
  platform : List PlatformEvent

inductive APIError
  | billingRefused | billingUnavailable
  | queryDataError
  | insufficientUserQuota (available required : ℤ)
  | tenantQuotaExceeded | projectBudgetExceeded
  | tokenQuotaExhausted
  | updateDataError
  deriving DecidableEq, Repr

inductive PreAuthReply
  /-- High cached balance: admitted without a hold. -/
  | skipped
  | granted (preAuthID : ℤ)
  /-- The breaker is open and the cached balance covers the estimate. -/
  | degraded
  | refused (e : APIError)
  deriving DecidableEq, Repr

structure PreEnv where
  billingUnifiedEnabled : Bool := false
  preAuth : PreAuthReply := .skipped
  localLedgerAdvisory : Bool := false
  tenantWalletAuthoritative : Bool := false
  /-- `GetUserQuota`, cache or row; `none` is a read error. -/
  userQuota : Option ℤ
  /-- Month's usage and cap; `none` where the gate is off, uncapped or unreadable. -/
  tenantCap : Option (ℤ × ℤ) := none
  projectCap : Option (ℤ × ℤ) := none
  trustQuota : ℤ
  tokenQuota : ℤ := 0
  batchUpdateEnabled : Bool := false
  tokenWriteFails : Bool := false
  userWriteFails : Bool := false
  rollbackFails : Bool := false
  release : Delivery := .live

/-- `enforceTenantQuota` and `enforceProjectBudget`: used plus estimate over the cap. -/
def exceedsCap : Option (ℤ × ℤ) → ℤ → Bool
  | none, _ => false
  | some (used,cap), quota => 0 < cap && cap < used+quota

def abandonPreAuth (release : Delivery) (w : World) : World :=
  if w.info.platformPreAuthID ≤ 0 then w
  else { w with
    info := { w.info with platformPreAuthID := 0 }
    platform := w.platform++[.release w.info.platformPreAuthID release] }

inductive TokenRefusal
  | insufficient
  | write
  deriving DecidableEq, Repr

/-- `PreConsumeTokenQuota`: playground requests pass without a debit. -/
def preConsumeTokenQuota (env : PreEnv) (info : RelayInfo) (l : Ledger) (quota : ℤ) :
    Except TokenRefusal Ledger :=
  if quota < 0 then .error .write
  else if info.isPlayground then .ok l
  else if info.tokenUnlimited then
    match decreaseTokenQuota env.batchUpdateEnabled env.tokenWriteFails l info.tokenId quota with
    | .ok l => .ok l
    | .error _ => .error .write
  else match decreaseTokenQuotaIfEnough env.tokenWriteFails l info.tokenId quota with
    | .error _ => .error .write
    | .ok none => .error .insufficient
    | .ok (some l) => .ok l

/-- Puts the estimate back on the token, whatever was taken from it. -/
def rollbackTokenFreeze (env : PreEnv) (info : RelayInfo) (l : Ledger) (quota : ℤ) : Ledger :=
  match increaseTokenQuota env.batchUpdateEnabled env.rollbackFails l info.tokenId quota with
  | .ok l => l
  | .error _ => l

/-- The platform leg; an existing hold is not taken again. -/
def preAuthStage (env : PreEnv) (estimate : ℤ) (info : RelayInfo) : Except APIError RelayInfo :=
  if info.platformPreAuthID > 0 then .ok { info with platformGoverned := true }
  else if env.billingUnifiedEnabled ∧ info.identityAccountID > 0 ∧ estimate > 0 then
    match env.preAuth with
    | .skipped | .degraded => .ok { info with platformGoverned := true }
    | .granted preAuthID => .ok { info with platformPreAuthID := preAuthID, platformGoverned := true }
    | .refused e => .error e
  else .ok info

/-- Advisory mode, globally or for a wallet-authoritative tenant; only for governed requests. -/
def advisoryMode (env : PreEnv) (info : RelayInfo) : RelayInfo × Bool :=
  let advisory := env.localLedgerAdvisory && info.platformGoverned
  if !advisory && info.platformGoverned && env.tenantWalletAuthoritative then
    ({ info with walletAuthoritative := true },true)
  else (info,advisory)

def gates (env : PreEnv) (estimate userQuota : ℤ) (info : RelayInfo) (advisory : Bool) : Option APIError :=
  if info.userId ≠ 0 ∧ (userQuota ≤ 0 ∨ userQuota-estimate < 0) ∧ !advisory then
    some (.insufficientUserQuota userQuota estimate)
  else if exceedsCap env.tenantCap estimate then some .tenantQuotaExceeded
  else if exceedsCap env.projectCap estimate then some .projectBudgetExceeded
  else none

def trusted (env : PreEnv) (userQuota : ℤ) (info : RelayInfo) : Bool :=
  userQuota > env.trustQuota && (info.tokenUnlimited || env.tokenQuota > env.trustQuota)

/-- The local freeze of a positive estimate: the ledger after it, and what was frozen or why the
request is refused. -/
def freeze (env : PreEnv) (estimate userQuota : ℤ) (info : RelayInfo) (advisory : Bool) (l : Ledger) :
    Ledger × Except APIError ℤ :=
  match preConsumeTokenQuota env info l estimate with
  | .error refusal =>
    -- the per-key cap stays enforced in advisory mode; only a failed write is passed over
    if advisory ∧ refusal ≠ .insufficient then (l,.ok 0)
    else (l,.error (if refusal = .insufficient then .tokenQuotaExhausted else .updateDataError))
  | .ok l' =>
    if info.userId = 0 then (l',.ok estimate)
    else if advisory then
      match decreaseUserQuota env.batchUpdateEnabled env.userWriteFails l' info.userId estimate with
      | .ok l'' => (l'',.ok estimate)
      | .error _ => (rollbackTokenFreeze env info l' estimate,.ok 0)
    else match decreaseUserQuotaIfEnough env.userWriteFails l' info.userId estimate with
      | .ok (some l'') => (l'',.ok estimate)
      | .ok none => (rollbackTokenFreeze env info l' estimate,.error (.insufficientUserQuota userQuota estimate))
      | .error _ => (rollbackTokenFreeze env info l' estimate,.error .updateDataError)

/-- The balance read; tenant-scoped keys have no user row and read 0. -/
def readUserQuota (env : PreEnv) (info : RelayInfo) : Option ℤ :=
  if info.userId = 0 then some 0 else env.userQuota

def preConsumeQuota (env : PreEnv) (estimate : ℤ) (w : World) : World × Option APIError :=
  match preAuthStage env estimate w.info with
  | .error e => (w,some e)
  | .ok info =>
    let (info,advisory) := advisoryMode env info
    let w := { w with info }
    match readUserQuota env info with
    -- the one refusal after the hold that does not abandon it
    | none => (w,some .queryDataError)
    | some userQuota =>
      match gates env estimate userQuota info advisory with
      | some e => (abandonPreAuth env.release w,some e)
      | none =>
        let w := { w with info := { info with userQuota } }
        let quota := if trusted env userQuota info then 0 else estimate
        if quota > 0 then
          match freeze env quota userQuota info advisory w.ledger with
          | (ledger,.ok frozen) =>
            ({ w with ledger, info := { w.info with finalPreConsumedQuota := frozen } },none)
          | (ledger,.error e) => (abandonPreAuth env.release { w with ledger },some e)
        else ({ w with info := { w.info with finalPreConsumedQuota := quota } },none)

@[simp] lemma abandonPreAuth_ledger (d : Delivery) (w : World) :
    (abandonPreAuth d w).ledger = w.ledger := by
  unfold abandonPreAuth
  split <;> rfl

/-- Who asks, with which token: what no stage of the admission changes. -/
def SameCaller (a b : RelayInfo) : Prop :=
  a.userId = b.userId ∧ a.tokenId = b.tokenId ∧ a.isPlayground = b.isPlayground ∧
    a.tokenUnlimited = b.tokenUnlimited ∧ a.identityAccountID = b.identityAccountID

lemma preAuthStage_sameCaller
    (h : preAuthStage env estimate info = .ok info') : SameCaller info' info := by
  unfold preAuthStage at h
  split_ifs at h
  · cases h
    simp [SameCaller]
  · split at h <;> cases h <;> simp [SameCaller]
  · cases h
    simp [SameCaller]

lemma advisoryMode_sameCaller (env : PreEnv) (info : RelayInfo) :
    SameCaller (advisoryMode env info).1 info := by
  simp only [advisoryMode]
  split <;> simp [SameCaller]

lemma SameCaller.trans (hab : SameCaller a b) (hbc : SameCaller b c) : SameCaller a c := by
  obtain ⟨h₁,h₂,h₃,h₄,h₅⟩ := hab
  exact ⟨h₁.trans hbc.1,h₂.trans hbc.2.1,h₃.trans hbc.2.2.1,h₄.trans hbc.2.2.2.1,h₅.trans hbc.2.2.2.2⟩

/-! What each local write of the admission can do, by the inputs. -/

/-- What the token freeze takes: nothing from a playground request, else the estimate. -/
def tokenFreeze (info : RelayInfo) (estimate : ℤ) : ℤ := if info.isPlayground then 0 else estimate

/-- The per-key cap refuses: a limited token whose row does not cover the estimate. -/
def TokenCapped (env : PreEnv) (estimate : ℤ) (info : RelayInfo) (l : Ledger) : Prop :=
  info.isPlayground = false ∧ info.tokenUnlimited = false ∧ env.tokenWriteFails = false ∧
    ∀ row ∈ l.token? info.tokenId, row.remainQuota < estimate

/-- The token write fails; an unlimited token's write cannot when it is batched. -/
def TokenWriteLost (env : PreEnv) (info : RelayInfo) : Prop :=
  info.isPlayground = false ∧ env.tokenWriteFails = true ∧
    (info.tokenUnlimited = true → env.batchUpdateEnabled = false)

def UserWriteLost (env : PreEnv) : Prop := env.batchUpdateEnabled = false ∧ env.userWriteFails = true

/-- The conditional user debit finds no row that covers the estimate, or its write fails. -/
def UserDebitRefused (env : PreEnv) (estimate : ℤ) (userId : ℕ) (l : Ledger) : Prop :=
  env.userWriteFails = true ∨ ∀ balance ∈ l.user? userId, balance < estimate

structure TokenFrozen (env : PreEnv) (estimate : ℤ) (info : RelayInfo) (l l' : Ledger) : Prop where
  uncapped : ¬ TokenCapped env estimate info l
  written : ¬ TokenWriteLost env info
  user : l'.user? = l.user?
  playground : info.isPlayground = true → l' = l
  balances : l'.balances = l.balances.chargeToken info.tokenId (tokenFreeze info estimate)

inductive TokenLeg (env : PreEnv) (estimate : ℤ) (info : RelayInfo) (l : Ledger) :
    Except TokenRefusal Ledger → Prop
  | capped (h : TokenCapped env estimate info l) : TokenLeg env estimate info l (.error .insufficient)
  | lost (h : TokenWriteLost env info) : TokenLeg env estimate info l (.error .write)
  | frozen {l' : Ledger} (h : TokenFrozen env estimate info l l') : TokenLeg env estimate info l (.ok l')

lemma addTokenQuota_user {id : ℕ}
    (h : addTokenQuota batch fails l id delta = .ok l') : l'.user? = l.user? := by
  unfold addTokenQuota at h
  split_ifs at h <;> cases h <;> rfl

lemma preConsumeTokenQuota_leg (env : PreEnv) (info : RelayInfo) (l : Ledger) (hpos : 0 ≤ est) :
    TokenLeg env est info l (preConsumeTokenQuota env info l est) := by
  have hneg : ¬ est < 0 := by omega
  unfold preConsumeTokenQuota
  split_ifs with hplay hunl
  · refine .frozen ⟨?_,?_,rfl,fun _ => rfl,?_⟩ <;> simp [TokenCapped,TokenWriteLost,tokenFreeze,hplay]
  · cases hd : decreaseTokenQuota env.batchUpdateEnabled env.tokenWriteFails l info.tokenId est with
    | error e =>
      refine .lost ?_
      simp only [decreaseTokenQuota,if_neg hneg,addTokenQuota] at hd
      split_ifs at hd with hbatch hfail
      simp_all [TokenWriteLost]
    | ok l' =>
      have hbal := decreaseTokenQuota_ok hd
      simp only [decreaseTokenQuota,if_neg hneg] at hd
      refine .frozen ⟨by simp [TokenCapped,hunl],?_,addTokenQuota_user hd,fun h => absurd h hplay,
        by simpa [tokenFreeze,hplay] using hbal⟩
      rintro ⟨-,hfail,hbatch⟩
      simp [addTokenQuota,hfail,hbatch hunl] at hd
  · have hdebit := decreaseTokenQuotaIfEnough_debit env.tokenWriteFails l info.tokenId hpos
    generalize decreaseTokenQuotaIfEnough env.tokenWriteFails l info.tokenId est = result at hdebit ⊢
    have hplay : info.isPlayground = false := by simpa using hplay
    have hunl : info.tokenUnlimited = false := by simpa using hunl
    cases hdebit with
    | lost hfails => exact .lost ⟨hplay,hfails,by simp [hunl]⟩
    | refused hwri hshort => exact .capped ⟨hplay,hunl,hwri,hshort⟩
    | taken hwri hrow henough hadd =>
      refine .frozen ⟨?_,by simp [TokenWriteLost,hwri],addTokenQuota_user hadd,by simp [hplay],
        by simpa [tokenFreeze,hplay] using addTokenQuota_ok hadd⟩
      rintro ⟨-,-,-,hshort⟩
      have hlt := hshort _ hrow
      omega

lemma rollbackTokenFreeze_balances (info : RelayInfo) (l : Ledger) (hr : env.rollbackFails = false)
    (hpos : 0 ≤ est) :
    (rollbackTokenFreeze env info l est).balances = l.balances.chargeToken info.tokenId (-est) := by
  have hok : ∃ r, increaseTokenQuota env.batchUpdateEnabled env.rollbackFails l info.tokenId est = .ok r := by
    have hneg : ¬ est < 0 := by omega
    cases hb : env.batchUpdateEnabled <;> simp [increaseTokenQuota,addTokenQuota,hneg,hr]
  obtain ⟨r,hok⟩ := hok
  simp only [rollbackTokenFreeze,hok]
  exact increaseTokenQuota_ok hok

lemma decreaseUserQuotaIfEnough_refused (env : PreEnv) (l : Ledger) (uid : ℕ) (hpos : 0 < est) :
    (∀ r, decreaseUserQuotaIfEnough env.userWriteFails l uid est ≠ .ok (some r)) ↔
      UserDebitRefused env est uid l := by
  have hneg : ¬ est < 0 := by omega
  unfold decreaseUserQuotaIfEnough UserDebitRefused
  rw [if_neg hneg]
  cases env.userWriteFails with
  | true => simp
  | false =>
    cases l.user? uid with
    | none => simp
    | some balance =>
      by_cases hle : est ≤ balance
      · simp [hle]
      · simp [hle]
        omega

lemma decreaseUserQuota_lost (env : PreEnv) (l : Ledger) (uid : ℕ) (hpos : 0 < est) :
    (∃ e, decreaseUserQuota env.batchUpdateEnabled env.userWriteFails l uid est = .error e) ↔
      UserWriteLost env := by
  have hneg : ¬ est < 0 := by omega
  cases hb : env.batchUpdateEnabled <;> cases hf : env.userWriteFails <;>
    simp [decreaseUserQuota,addUserQuota,UserWriteLost,hneg,hb,hf]

inductive FreezeResult (env : PreEnv) (estimate : ℤ) (info : RelayInfo) (advisory : Bool) (l : Ledger) :
    Ledger × Except APIError ℤ → Prop
  | capped (e : APIError) (h : TokenCapped env estimate info l) :
      FreezeResult env estimate info advisory l (l,.error e)
  | tokenFailed (e : APIError) (h : TokenWriteLost env info) (hadv : advisory = false) :
      FreezeResult env estimate info advisory l (l,.error e)
  | tokenLost (h : TokenWriteLost env info) (hadv : advisory = true) :
      FreezeResult env estimate info advisory l (l,.ok 0)
  | provisioned {l' : Ledger} (h : TokenFrozen env estimate info l l') (huser : info.userId = 0) :
      FreezeResult env estimate info advisory l (l',.ok estimate)
  | userLost {l' : Ledger} (h : TokenFrozen env estimate info l l') (huser : info.userId ≠ 0)
      (hadv : advisory = true) (hlost : UserWriteLost env) :
      FreezeResult env estimate info advisory l (rollbackTokenFreeze env info l' estimate,.ok 0)
  | shadowed {l' l'' : Ledger} (h : TokenFrozen env estimate info l l') (huser : info.userId ≠ 0)
      (hadv : advisory = true) (hkept : ¬ UserWriteLost env)
      (hbal : l''.balances = l'.balances.chargeUser info.userId estimate) :
      FreezeResult env estimate info advisory l (l'',.ok estimate)
  | userRefused {l' : Ledger} (e : APIError) (h : TokenFrozen env estimate info l l') (huser : info.userId ≠ 0)
      (hadv : advisory = false) (hrefused : UserDebitRefused env estimate info.userId l) :
      FreezeResult env estimate info advisory l (rollbackTokenFreeze env info l' estimate,.error e)
  | debited {l' l'' : Ledger} (h : TokenFrozen env estimate info l l') (huser : info.userId ≠ 0)
      (hadv : advisory = false) (hpaid : ¬ UserDebitRefused env estimate info.userId l)
      (hbal : l''.balances = l'.balances.chargeUser info.userId estimate) :
      FreezeResult env estimate info advisory l (l'',.ok estimate)

lemma freeze_result (env : PreEnv) (quota : ℤ) (info : RelayInfo) (advisory : Bool)
    (l : Ledger) (hpos : 0 < est) :
    FreezeResult env est info advisory l (freeze env est quota info advisory l) := by
  have hleg := preConsumeTokenQuota_leg env info l (Int.le_of_lt hpos)
  unfold freeze
  cases hpre : preConsumeTokenQuota env info l est with
  | error refusal =>
    rw [hpre] at hleg
    cases hleg with
    | capped h => simpa using .capped .tokenQuotaExhausted h
    | lost h =>
      cases advisory with
      | true => simpa using .tokenLost h rfl
      | false => simpa using .tokenFailed .updateDataError h rfl
  | ok l' =>
    rw [hpre] at hleg
    obtain _ | _ | ⟨hfrozen⟩ := hleg
    by_cases huser : info.userId = 0
    · simpa [huser] using .provisioned hfrozen huser
    simp only [huser]
    cases advisory with
    | true =>
      have hlost := decreaseUserQuota_lost env l' info.userId hpos
      cases hd : decreaseUserQuota env.batchUpdateEnabled env.userWriteFails l' info.userId est with
      | error e => exact .userLost hfrozen huser rfl (hlost.1 ⟨e,hd⟩)
      | ok l'' =>
        refine .shadowed hfrozen huser rfl (fun h => ?_) (decreaseUserQuota_ok hd)
        obtain ⟨e,he⟩ := hlost.2 h
        rw [hd] at he
        cases he
    | false =>
      have href := decreaseUserQuotaIfEnough_refused env l' info.userId hpos
      have hsame : UserDebitRefused env est info.userId l' ↔ UserDebitRefused env est info.userId l := by
        simp [UserDebitRefused,hfrozen.user]
      rw [hsame] at href
      cases hd : decreaseUserQuotaIfEnough env.userWriteFails l' info.userId est with
      | error err => exact .userRefused _ hfrozen huser rfl (href.1 fun r => by simp [hd])
      | ok r =>
        cases r with
        | none => exact .userRefused _ hfrozen huser rfl (href.1 fun r => by simp [hd])
        | some l'' =>
          refine .debited hfrozen huser rfl (fun h => href.2 h l'' hd) ?_
          simpa using addUserQuota_ok (decreaseUserQuotaIfEnough_some hd)

def Staged (env : PreEnv) (estimate : ℤ) (w : World) (info : RelayInfo) (advisory : Bool) : Prop :=
  ∃ i, preAuthStage env estimate w.info = .ok i ∧ advisoryMode env i = (info,advisory)

lemma Staged.sameCaller (h : Staged env estimate w info advisory) : SameCaller info w.info := by
  obtain ⟨i,hstage,hmode⟩ := h
  have hinfo := advisoryMode_sameCaller env i
  rw [hmode] at hinfo
  exact hinfo.trans (preAuthStage_sameCaller hstage)

structure Passes (env : PreEnv) (estimate : ℤ) (w : World) (info : RelayInfo) (advisory : Bool)
    (userQuota : ℤ) : Prop where
  staged : Staged env estimate w info advisory
  read : readUserQuota env info = some userQuota
  gates : gates env estimate userQuota info advisory = none

inductive Admission (env : PreEnv) (estimate : ℤ) (w : World) : World × Option APIError → Prop
  | refused {e : APIError} (h : preAuthStage env estimate w.info = .error e) :
      Admission env estimate w (w,some e)
  | unreadable {info : RelayInfo} {advisory : Bool} (h : Staged env estimate w info advisory)
      (hread : readUserQuota env info = none) :
      Admission env estimate w ({ w with info },some .queryDataError)
  | gated {info : RelayInfo} {advisory : Bool} {userQuota : ℤ} {e : APIError}
      (h : Staged env estimate w info advisory) (hread : readUserQuota env info = some userQuota)
      (hgates : gates env estimate userQuota info advisory = some e) :
      Admission env estimate w (abandonPreAuth env.release { w with info },some e)
  | trusted {info : RelayInfo} {advisory : Bool} {userQuota quota : ℤ}
      (h : Passes env estimate w info advisory userQuota)
      (hquota : trusted env userQuota info = true ∧ quota = 0 ∨
        trusted env userQuota info = false ∧ quota = estimate ∧ estimate ≤ 0) :
      Admission env estimate w
        ({ w with info := { info with userQuota, finalPreConsumedQuota := quota } },none)
  | frozen {info : RelayInfo} {advisory : Bool} {userQuota quota : ℤ} {ledger : Ledger}
      (h : Passes env estimate w info advisory userQuota) (htrust : trusted env userQuota info = false)
      (hpos : 0 < estimate) (hfreeze : freeze env estimate userQuota info advisory w.ledger = (ledger,.ok quota)) :
      Admission env estimate w
        ({ w with ledger, info := { info with userQuota, finalPreConsumedQuota := quota } },none)
  | unfrozen {info : RelayInfo} {advisory : Bool} {userQuota : ℤ} {ledger : Ledger} {e : APIError}
      (h : Passes env estimate w info advisory userQuota) (htrust : trusted env userQuota info = false)
      (hpos : 0 < estimate) (hfreeze : freeze env estimate userQuota info advisory w.ledger = (ledger,.error e)) :
      Admission env estimate w
        (abandonPreAuth env.release { w with ledger, info := { info with userQuota } },some e)

lemma preConsumeQuota_admission (env : PreEnv) (est : ℤ) (w : World) :
    Admission env est w (preConsumeQuota env est w) := by
  unfold preConsumeQuota
  cases hstage : preAuthStage env est w.info with
  | error e => exact .refused hstage
  | ok i =>
    obtain ⟨info,advisory,hmode⟩ : ∃ info advisory, advisoryMode env i = (info,advisory) := ⟨_,_,rfl⟩
    have hsta : Staged env est w info advisory := ⟨i,hstage,hmode⟩
    simp only [hmode]
    cases hread : readUserQuota env info with
    | none => exact .unreadable hsta hread
    | some userQuota =>
      cases hgat : gates env est userQuota info advisory with
      | some e =>
        simp only [hgat]
        exact .gated hsta hread hgat
      | none =>
        have hpass : Passes env est w info advisory userQuota := ⟨hsta,hread,hgat⟩
        simp only [hgat]
        cases htru : PreConsume.trusted env userQuota info with
        | true => simpa using .trusted hpass (.inl ⟨htru,rfl⟩)
        | false =>
          by_cases hpos : 0 < est
          · simp only [Bool.false_eq_true,if_false,hpos]
            cases hfre : freeze env est userQuota info advisory w.ledger with
            | mk ledger r =>
              cases r with
              | ok quota => exact .frozen hpass htru hpos hfre
              | error e => exact .unfrozen hpass htru hpos hfre
          · simpa [hpos] using .trusted hpass (.inr ⟨htru,rfl,by omega⟩)

end LurusHub.PreConsume
