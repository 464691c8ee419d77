import LurusHub.CreditPool

/-! The local quota ledgers: user balances, token balances and tenant pools. A write goes to its
row, or with batched updates into a buffer, which a balance counts. On the abstract ledger below
every write is a charge. -/
namespace LurusHub.QuotaLedger
open CreditPool

structure TokenRow where
  (remainQuota usedQuota : ℤ)
  tenantID : TenantID
  deriving DecidableEq, Repr

structure Ledger where
  users : ℕ → Option ℤ
  tokens : ℕ → Option TokenRow
  (userBatch tokenBatch : ℕ → ℤ)
  pools : DB

def Ledger.user? (l : Ledger) (id : ℕ) : Option ℤ := if id = 0 then none else l.users id

def Ledger.token? (l : Ledger) (id : ℕ) : Option TokenRow := if id = 0 then none else l.tokens id

inductive LedgerError
  | quotaNegative (text : String)
  | database
  deriving DecidableEq, Repr

/-- `UPDATE users SET quota = quota + delta`, or its batch record. -/
def addUserQuota (batch fails : Bool) (l : Ledger) (id : ℕ) (delta : ℤ) : Except LedgerError Ledger :=
  if batch then .ok { l with userBatch := Function.update l.userBatch id (l.userBatch id+delta) }
  else if fails then .error .database
  else .ok { l with users := Function.update l.users id ((l.users id).map (·+delta)) }

def increaseUserQuota (batch fails : Bool) (l : Ledger) (id : ℕ) (quota : ℤ) : Except LedgerError Ledger :=
  if quota < 0 then .error (.quotaNegative "quota must not be negative")
  else addUserQuota batch fails l id quota

def decreaseUserQuota (batch fails : Bool) (l : Ledger) (id : ℕ) (quota : ℤ) : Except LedgerError Ledger :=
  if quota < 0 then .error (.quotaNegative "quota must not be negative")
  else addUserQuota batch fails l id (-quota)

/-- The conditional debit; never batched. `none` is RowsAffected = 0. -/
def decreaseUserQuotaIfEnough (fails : Bool) (l : Ledger) (id : ℕ) (quota : ℤ) :
    Except LedgerError (Option Ledger) :=
  if quota < 0 then .error (.quotaNegative "quota must not be negative")
  else if fails then .error .database
  else match l.user? id with
    | none => .ok none
    | some balance =>
      if quota ≤ balance then .ok (some { l with users := Function.update l.users id (some (balance-quota)) })
      else .ok none

def TokenRow.add (r : TokenRow) (delta : ℤ) : TokenRow :=
  { r with remainQuota := r.remainQuota+delta, usedQuota := r.usedQuota-delta }

def addTokenQuota (batch fails : Bool) (l : Ledger) (id : ℕ) (delta : ℤ) : Except LedgerError Ledger :=
  if batch then .ok { l with tokenBatch := Function.update l.tokenBatch id (l.tokenBatch id+delta) }
  else if fails then .error .database
  else .ok { l with tokens := Function.update l.tokens id ((l.tokens id).map (·.add delta)) }

def increaseTokenQuota (batch fails : Bool) (l : Ledger) (id : ℕ) (quota : ℤ) : Except LedgerError Ledger :=
  if quota < 0 then .error (.quotaNegative "quota cannot be negative")
  else addTokenQuota batch fails l id quota

def decreaseTokenQuota (batch fails : Bool) (l : Ledger) (id : ℕ) (quota : ℤ) : Except LedgerError Ledger :=
  if quota < 0 then .error (.quotaNegative "quota cannot be negative")
  else addTokenQuota batch fails l id (-quota)

def decreaseTokenQuotaIfEnough (fails : Bool) (l : Ledger) (id : ℕ) (quota : ℤ) :
    Except LedgerError (Option Ledger) :=
  if quota < 0 then .error (.quotaNegative "quota cannot be negative")
  else if fails then .error .database
  else match l.token? id with
    | none => .ok none
    | some row =>
      if quota ≤ row.remainQuota then
        .ok (some { l with tokens := Function.update l.tokens id (some (row.add (-quota))) })
      else .ok none

/-! The abstract ledger. -/

abbrev TokenQuota := ℤ × ℤ

@[ext] structure Balances where
  user : ℕ → Option ℤ
  token : ℕ → Option TokenQuota
  tenant : ℕ → Option TenantID
  pools : DB

namespace Balances

def chargeUser (b : Balances) (id : ℕ) (amount : ℤ) : Balances :=
  { b with user := fun k => if k = id then (b.user k).map (·-amount) else b.user k }

def chargeToken (b : Balances) (id : ℕ) (amount : ℤ) : Balances :=
  { b with token := fun k =>
      if k = id then (b.token k).map fun t => (t.1-amount,t.2+amount) else b.token k }

/-- Accounts with the one of `id` changed, as by a charge. -/
def mapAt {α : Type} (id : ℕ) (g : α → α) (f : ℕ → Option α) : ℕ → Option α := fun k => if k = id then (f k).map g else f k

section
variable (b : Balances)

@[simp] lemma chargeUser_token (id : ℕ) (x : ℤ) : (b.chargeUser id x).token = b.token := rfl
@[simp] lemma chargeUser_tenant (id : ℕ) : (b.chargeUser id x).tenant = b.tenant := rfl
@[simp] lemma chargeUser_pools (id : ℕ) : (b.chargeUser id x).pools = b.pools := rfl
@[simp] lemma chargeToken_user (id : ℕ) : (b.chargeToken id x).user = b.user := rfl
@[simp] lemma chargeToken_tenant (id : ℕ) : (b.chargeToken id x).tenant = b.tenant := rfl
@[simp] lemma chargeToken_pools (id : ℕ) : (b.chargeToken id x).pools = b.pools := rfl
@[simp] lemma chargeUser_user_self (id : ℕ) (x : ℤ) :
    (b.chargeUser id x).user id = (b.user id).map (·-x) := by simp [chargeUser]
@[simp] lemma chargeToken_token_self (id : ℕ) :
    (b.chargeToken id x).token id = (b.token id).map fun t => (t.1-x,t.2+x) := by simp [chargeToken]

theorem mapAt_mapAt (hg : ∀ x, g₂ (g₁ x) = g x) : mapAt i g₂ (mapAt i g₁ f) = mapAt i g f := by
  funext k
  by_cases hk : k = i
  · simp [mapAt,hk,Function.comp_def,hg]
  · simp [mapAt,hk]

lemma mapAt_eq_self (hg : ∀ x, g x = x ↔ p) : mapAt i g f = f ↔ p ∨ f i = none := by
  constructor
  · intro h
    have hi := congrFun h i
    cases hf : f i with
    | none => exact .inr rfl
    | some x =>
      simp only [mapAt,if_true,hf,Option.map_some,Option.some.injEq,hg] at hi
      exact .inl hi
  · intro h
    funext k
    by_cases hk : k = i
    · rcases h with h | h
      · have hsame : g = id := funext fun x => (hg x).mpr h
        simp [mapAt,hsame]
      · simp [mapAt,hk,h]
    · simp [mapAt,hk]

@[simp] lemma chargeUser_chargeUser (id : ℕ) (x y : ℤ) :
    (b.chargeUser id x).chargeUser id y = b.chargeUser id (x+y) :=
  Balances.ext (mapAt_mapAt fun z => Int.sub_sub z x y) rfl rfl rfl

@[simp] lemma chargeToken_chargeToken (id : ℕ) : (b.chargeToken id x).chargeToken id y = b.chargeToken id (x+y) :=
  Balances.ext rfl (mapAt_mapAt fun z => Prod.ext (Int.sub_sub z.1 x y) (Int.add_assoc z.2 x y)) rfl rfl

/-! A charge that changes nothing is zero or on an account that does not exist. -/

lemma chargeUser_user_eq (id : ℕ) (x : ℤ) : (b.chargeUser id x).user = b.user ↔ x = 0 ∨ b.user id = none :=
  mapAt_eq_self fun z => by omega

lemma chargeToken_token_eq (id : ℕ) (x : ℤ) : (b.chargeToken id x).token = b.token ↔ x = 0 ∨ b.token id = none :=
  mapAt_eq_self fun z => by
    rw [Prod.ext_iff]
    omega

@[simp] lemma chargeUser_zero (id : ℕ) : b.chargeUser id 0 = b :=
  Balances.ext ((chargeUser_user_eq b id 0).mpr (.inl rfl)) rfl rfl rfl

lemma chargeToken_eq_self (id : ℕ) (x : ℤ) : b.chargeToken id x = b ↔ x = 0 ∨ b.token id = none := by
  rw [← chargeToken_token_eq]
  exact ⟨congrArg token,fun h => Balances.ext rfl h rfl rfl⟩

@[simp] lemma chargeToken_zero (id : ℕ) : b.chargeToken id 0 = b := (chargeToken_eq_self b id 0).mpr (.inl rfl)

lemma chargeUser_chargeToken (u t : ℕ) (x y : ℤ) :
    (b.chargeUser u x).chargeToken t y = (b.chargeToken t y).chargeUser u x := rfl

end

end Balances

/-- What the concrete ledger holds, buffered writes included. -/
def Ledger.balances (l : Ledger) : Balances where
  user id := (l.user? id).map (·+l.userBatch id)
  token id := (l.token? id).map fun r => (r.remainQuota+l.tokenBatch id,r.usedQuota-l.tokenBatch id)
  tenant id := (l.token? id).map (·.tenantID)
  pools := l.pools

@[simp] lemma Ledger.balances_chargeUser_zero (l : Ledger) (x : ℤ) : l.balances.chargeUser 0 x = l.balances := by
  refine Balances.ext (funext fun k => ?_) rfl rfl rfl
  by_cases hk : k = 0 <;> simp [Ledger.balances,Balances.chargeUser,Ledger.user?,hk]

@[simp] lemma Ledger.balances_chargeToken_zero (l : Ledger) (x : ℤ) : l.balances.chargeToken 0 x = l.balances := by
  refine Balances.ext rfl (funext fun k => ?_) rfl rfl
  by_cases hk : k = 0 <;> simp [Ledger.balances,Balances.chargeToken,Ledger.token?,hk]

section
variable {id : ℕ}

lemma addUserQuota_ok (h : addUserQuota batch fails l id delta = .ok l') :
    l'.balances = l.balances.chargeUser id (-delta) := by
  unfold addUserQuota at h
  split_ifs at h
  · cases h
    refine Balances.ext (funext fun k => ?_) rfl rfl rfl
    by_cases hk : k = id
    · cases hu : l.user? k with
      | none => simp_all [Ledger.balances,Balances.chargeUser,Ledger.user?]
      | some z => simp_all [Ledger.balances,Balances.chargeUser,Ledger.user?,Int.add_assoc]
    · simp [Ledger.balances,Balances.chargeUser,Ledger.user?,hk]
  · cases h
    refine Balances.ext (funext fun k => ?_) rfl rfl rfl
    by_cases hk : k = id
    · subst hk
      by_cases h0 : k = 0
      · simp [Ledger.balances,Ledger.user?,h0]
      · cases hu : l.users k <;> simp [Ledger.balances,Ledger.user?,h0,hu]
        omega
    · simp [Ledger.balances,Balances.chargeUser,Ledger.user?,hk]

lemma decreaseUserQuota_ok (h : decreaseUserQuota batch fails l id quota = .ok l') :
    l'.balances = l.balances.chargeUser id quota := by
  unfold decreaseUserQuota at h
  split_ifs at h
  simpa using addUserQuota_ok h

lemma increaseUserQuota_ok (h : increaseUserQuota batch fails l id quota = .ok l') :
    l'.balances = l.balances.chargeUser id (-quota) := by
  unfold increaseUserQuota at h
  split_ifs at h
  exact addUserQuota_ok h

lemma decreaseUserQuotaIfEnough_some (h : decreaseUserQuotaIfEnough fails l id quota = .ok (some l')) :
    addUserQuota false false l id (-quota) = .ok l' := by
  unfold decreaseUserQuotaIfEnough at h
  split_ifs at h
  split at h
  · simp at h
  · next balance hb =>
    split_ifs at h
    · cases h
      have hrow : l.users id = some balance := by
        unfold Ledger.user? at hb
        split_ifs at hb
        exact hb
      simp [addUserQuota,hrow,Int.sub_eq_add_neg]
    · simp at h

lemma addTokenQuota_ok (h : addTokenQuota batch fails l id delta = .ok l') :
    l'.balances = l.balances.chargeToken id (-delta) := by
  unfold addTokenQuota at h
  split_ifs at h
  · cases h
    refine Balances.ext rfl (funext fun k => ?_) rfl rfl
    by_cases hk : k = id
    · subst hk
      have hmap : ∀ r : TokenRow, (r.remainQuota+(l.tokenBatch k+delta),r.usedQuota-(l.tokenBatch k+delta)) =
          (r.remainQuota+l.tokenBatch k- -delta,r.usedQuota-l.tokenBatch k+ -delta) := by
        intro r
        ext <;> omega
      simp [Ledger.balances,Ledger.token?,Function.comp_def,hmap]
    · simp [Ledger.balances,Balances.chargeToken,Ledger.token?,hk]
  · cases h
    refine Balances.ext rfl (funext fun k => ?_) (funext fun k => ?_) rfl
    · by_cases hk : k = id
      · subst hk
        have hmap : ∀ r : TokenRow, (r.remainQuota+delta+l.tokenBatch k,r.usedQuota-delta-l.tokenBatch k) =
            (r.remainQuota+l.tokenBatch k- -delta,r.usedQuota-l.tokenBatch k+ -delta) := by
          intro r
          ext <;> omega
        by_cases h0 : k = 0
        · simp [Ledger.balances,Ledger.token?,h0]
        · simp [Ledger.balances,Ledger.token?,h0,Function.comp_def,TokenRow.add,hmap]
      · simp [Ledger.balances,Balances.chargeToken,Ledger.token?,hk]
    · by_cases hk : k = id
      · subst hk
        by_cases h0 : k = 0
        · simp [Ledger.balances,Ledger.token?,h0]
        · simp [Ledger.balances,Ledger.token?,h0,Function.comp_def,TokenRow.add]
      · simp [Ledger.balances,Ledger.token?,hk]

lemma decreaseTokenQuota_ok (h : decreaseTokenQuota batch fails l id quota = .ok l') :
    l'.balances = l.balances.chargeToken id quota := by
  unfold decreaseTokenQuota at h
  split_ifs at h
  simpa using addTokenQuota_ok h

lemma increaseTokenQuota_ok (h : increaseTokenQuota batch fails l id quota = .ok l') :
    l'.balances = l.balances.chargeToken id (-quota) := by
  unfold increaseTokenQuota at h
  split_ifs at h
  exact addTokenQuota_ok h

inductive TokenDebit (fails : Bool) (l : Ledger) (id : ℕ) (quota : ℤ) : Except LedgerError (Option Ledger) → Prop
  | lost (hfails : fails = true) : TokenDebit fails l id quota (.error .database)
  | refused (hwrite : fails = false) (hshort : ∀ row ∈ l.token? id, row.remainQuota < quota) :
      TokenDebit fails l id quota (.ok none)
  | taken {l' : Ledger} {row : TokenRow} (hwrite : fails = false) (hrow : l.token? id = some row)
      (henough : quota ≤ row.remainQuota) (hadd : addTokenQuota false false l id (-quota) = .ok l') :
      TokenDebit fails l id quota (.ok (some l'))

lemma decreaseTokenQuotaIfEnough_debit (fails : Bool) (l : Ledger) (id : ℕ) (hpos : 0 ≤ quota) :
    TokenDebit fails l id quota (decreaseTokenQuotaIfEnough fails l id quota) := by
  unfold decreaseTokenQuotaIfEnough
  rw [if_neg (by omega)]
  cases hfails : fails with
  | true => exact .lost rfl
  | false =>
    cases hrow : l.token? id with
    | none => exact .refused rfl (by simp [hrow])
    | some row =>
      by_cases henough : quota ≤ row.remainQuota
      · have htable : l.tokens id = some row := by
          unfold Ledger.token? at hrow
          split_ifs at hrow
          exact hrow
        simp only [if_pos henough]
        exact .taken rfl hrow henough (by simp [addTokenQuota,htable])
      · simp only [if_neg henough]
        refine .refused rfl fun row' hrow' => ?_
        obtain rfl : row = row' := Option.some.inj (hrow.symm.trans hrow')
        omega

end

end LurusHub.QuotaLedger
