import LurusHub.PostConsumeCompensation
import LurusHub.RelayHold
import LurusHub.Transition
import Mathlib.Algebra.BigOperators.Group.List.Basic

/-! Giving a freeze back. `ReturnPreConsumedQuota` clears the id of the hold but not the frozen
amount, so every further call pays the freeze out anew. A call is known by the shares of the freeze
it pays to user and token. -/
namespace LurusHub.FreezeReturn
open QuotaLedger PreConsume PostConsume SettledCost PostConsumeCompensation Balances

instance (env : PostEnv) (info : RelayInfo) : Decidable (StopsAtUser env info) := by
  delta StopsAtUser
  infer_instance

instance (env : PostEnv) (info : RelayInfo) : Decidable (TokenWriteFails env info) :=
  decidable_of_iff (¬ StopsAtUser env info ∧ (info.isPlayground = false ∧ 0 < info.tokenId) ∧
      env.batchUpdateEnabled = false ∧ env.tokenWriteFails = true)
    ⟨fun h => ⟨h.1,h.2.1,h.2.2⟩,fun h => ⟨h.reached,h.charged,h.fails⟩⟩

/-- What one call pays the user, in units of the freeze: a failed token write takes the refund back,
even where it had not arrived. -/
def userShare (env : PostEnv) (info : RelayInfo) : ℤ :=
  if StopsAtUser env info then 0
  else (if SwallowedUserWrite env info then 0 else 1)
    -if TokenWriteFails env info ∧ env.compensationFails = false then 1 else 0

def tokenShare (env : PostEnv) (info : RelayInfo) : ℤ :=
  if StopsAtUser env info ∨ TokenWriteFails env info then 0 else 1

def userShares (envs : List PostEnv) (info : RelayInfo) : ℤ := (envs.map (userShare · info)).sum

def tokenShares (envs : List PostEnv) (info : RelayInfo) : ℤ := (envs.map (tokenShare · info)).sum

/-- Balances after `user` and `token` shares of the freeze were paid out. -/
def paid (b : Balances) (info : RelayInfo) (frozen user token : ℤ) : Balances :=
  (b.chargeToken info.tokenId (tokenFreeze info (-(frozen*token)))).chargeUser info.userId (-(frozen*user))

@[simp] lemma paid_zero (user token : ℤ) : paid b info 0 user token = b := by
  simp [paid,tokenFreeze]

@[simp] lemma paid_nothing : paid b info frozen 0 0 = b := by
  simp [paid,tokenFreeze]

lemma paid_paid (b : Balances) (info : RelayInfo) (frozen u t u' t' : ℤ) :
    paid (paid b info frozen u t) info frozen u' t' = paid b info frozen (u+u') (t+t') := by
  have huser : -(frozen*u)+ -(frozen*u') = -(frozen*(u+u')) := by rw [mul_add]; omega
  have htoken : -(frozen*t)+ -(frozen*t') = -(frozen*(t+t')) := by rw [mul_add]; omega
  simp [paid,chargeUser_chargeToken,tokenFreeze_add,huser,htoken]

lemma creditUser_lost (hbatch : env.batchUpdateEnabled = false) (hcomp : env.compensationFails)
    (quota : ℤ) : creditUser env info quota l = l := by
  simp [creditUser,compensateUser_eq,Except.toOption,addUserQuota,hbatch,hcomp]

lemma tokenPhase_refund (hrea : ¬ StopsAtUser env info) (quota debit : ℤ) (l : Ledger) :
    (tokenPhase env info quota debit false l).1.balances =
      (l.balances.chargeToken info.tokenId (tokenFreeze info (quota*tokenShare env info))).chargeUser info.userId
        (-(quota*if TokenWriteFails env info ∧ env.compensationFails = false then 1 else 0)) := by
  by_cases htoken : TokenWriteFails env info
  · obtain ⟨e,hphase⟩ := tokenPhase_failed htoken quota debit false l
    have hnone : tokenFreeze info 0 = 0 := by simp [tokenFreeze]
    cases hcomp : env.compensationFails with
    | true => simp [hphase,htoken,tokenShare,hnone,creditUser_lost htoken.fails.1 hcomp]
    | false => simp [hphase,htoken,tokenShare,hnone,creditUser_balances hcomp]
  · have hwri := fun hplay hid hfails => htoken ⟨hrea,⟨hplay,hid⟩,hfails⟩
    obtain ⟨l',hphase,hbal⟩ := tokenPhase_ok hwri quota debit false l
    simp [hphase,htoken,hrea,tokenShare,hbal]

theorem postConsumeQuota_refund (hpos : 0 < frozen) :
    (postConsumeQuota env (-frozen) 0 w).1.ledger.balances =
      paid w.ledger.balances w.info frozen (userShare env w.info) (tokenShare env w.info) := by
  by_cases hstop : StopsAtUser env w.info
  · obtain ⟨e,he⟩ := (userPhase_error_iff env w.info (-frozen) w.ledger).mpr hstop
    simp [postConsumeQuota,he,userShare,tokenShare,hstop]
  · obtain ⟨l,hphase,hbal⟩ := userPhase_landed hstop (-frozen) w.ledger
    have hpool : poolPhase env w.info (-frozen+0) l = (l,false) := if_neg (by omega)
    have htoken := tokenPhase_refund hstop (-frozen) (-frozen+0) l
    simp only [postConsumeQuota,hphase,hpool,settlePlatformWallet_ledger,htoken,hbal]
    have hlan : landed env w.info (-frozen) = -(frozen*if SwallowedUserWrite env w.info then 0 else 1) := by
      unfold landed
      split <;> simp
    simp only [userShare,hlan,chargeUser_chargeToken,chargeUser_chargeUser]
    congr 2
    · congr 1
      rw [neg_mul]
    · split <;> split <;> simp

def releases (release : Delivery) (info : RelayInfo) : List PlatformEvent :=
  if 0 < info.platformPreAuthID then [.release info.platformPreAuthID release] else []

lemma abandonPreAuth_released : abandonPreAuth d w =
      { w with
        info := { w.info with platformPreAuthID := min w.info.platformPreAuthID 0 }
        platform := w.platform++releases d w.info } := by
  unfold abandonPreAuth releases
  by_cases hheld : w.info.platformPreAuthID ≤ 0
  · have hno : ¬ 0 < w.info.platformPreAuthID := by omega
    simp [hheld,hno]
  · have hyes : 0 < w.info.platformPreAuthID := by omega
    simp [hheld,Int.le_of_lt hyes]

lemma returnPreConsumedQuota_paid (hfrozen : 0 ≤ w.info.finalPreConsumedQuota) :
    (returnPreConsumedQuota env w).ledger.balances =
        paid w.ledger.balances w.info w.info.finalPreConsumedQuota (userShare env w.info) (tokenShare env w.info) ∧
      (returnPreConsumedQuota env w).info = { w.info with platformPreAuthID := min w.info.platformPreAuthID 0 } ∧
      (returnPreConsumedQuota env w).platform = w.platform++releases env.release w.info := by
  unfold returnPreConsumedQuota
  rw [abandonPreAuth_released]
  by_cases hzero : w.info.finalPreConsumedQuota = 0
  · simp [hzero]
  · have hpos : 0 < w.info.finalPreConsumedQuota := by omega
    have hidle : StopsAtUser env w.info ∨ (-w.info.finalPreConsumedQuota+0 ≤ 0 ∧ (0 : ℤ) ≤ 0) :=
      .inr ⟨by omega,Int.le_refl 0⟩
    obtain ⟨hinfo,hpla⟩ := RelayHold.postConsumeQuota_held hidle
    simp only [hzero,ne_eq,not_false_eq_true,if_true,hinfo,hpla,postConsumeQuota_refund hpos,and_self]

def returnCalls : World → List PostEnv → World := Transition.run fun w env => returnPreConsumedQuota env w

lemma returnCalls_unheld (w : World) (hfrozen : 0 ≤ w.info.finalPreConsumedQuota)
    (hhold : w.info.platformPreAuthID ≤ 0) :
    (returnCalls w envs).ledger.balances = paid w.ledger.balances w.info w.info.finalPreConsumedQuota
        (userShares envs w.info) (tokenShares envs w.info) ∧
      (returnCalls w envs).info = w.info ∧ (returnCalls w envs).platform = w.platform := by
  induction envs generalizing w with
  | nil => simp [returnCalls,userShares,tokenShares]
  | cons env envs ih =>
    obtain ⟨hbal,hinfo,hpla⟩ := returnPreConsumedQuota_paid hfrozen
    have hno : ¬ 0 < w.info.platformPreAuthID := by omega
    rw [Int.min_eq_left hhold] at hinfo
    rw [releases,if_neg hno,List.append_nil] at hpla
    obtain ⟨hbal',hinfo',hpla'⟩ := ih (returnPreConsumedQuota env w) (by rw [hinfo]; exact hfrozen)
      (by rw [hinfo]; exact hhold)
    have hcalls : returnCalls w (env::envs) = returnCalls (returnPreConsumedQuota env w) envs := rfl
    rw [hcalls,hbal',hinfo',hpla',hinfo,hpla,hbal]
    refine ⟨?_,rfl,rfl⟩
    simp [paid_paid,userShares,tokenShares]

section
variable (env : PostEnv) (info : RelayInfo) (id : ℤ)

lemma tokenWriteFails_unheld :
    TokenWriteFails env { info with platformPreAuthID := id } ↔ TokenWriteFails env info :=
  ⟨fun h => ⟨h.reached,h.charged,h.fails⟩,fun h => ⟨h.reached,h.charged,h.fails⟩⟩

/-! The shares do not read the id of the hold. -/

@[simp] lemma userShare_unheld : userShare env { info with platformPreAuthID := id } = userShare env info := by
  have hstop : StopsAtUser env { info with platformPreAuthID := id } ↔ StopsAtUser env info := Iff.rfl
  have hswallowed : SwallowedUserWrite env { info with platformPreAuthID := id } ↔ SwallowedUserWrite env info := Iff.rfl
  simp only [userShare,tokenWriteFails_unheld,hstop,hswallowed]

@[simp] lemma tokenShare_unheld : tokenShare env { info with platformPreAuthID := id } = tokenShare env info := by
  have hstop : StopsAtUser env { info with platformPreAuthID := id } ↔ StopsAtUser env info := Iff.rfl
  simp only [tokenShare,tokenWriteFails_unheld,hstop]

end

theorem returnCalls_paid (envs : List PostEnv) (hfrozen : 0 ≤ w.info.finalPreConsumedQuota) :
    (returnCalls w (env::envs)).ledger.balances = paid w.ledger.balances w.info w.info.finalPreConsumedQuota
        (userShare env w.info+userShares envs w.info) (tokenShare env w.info+tokenShares envs w.info) ∧
      (returnCalls w (env::envs)).info.platformPreAuthID = min w.info.platformPreAuthID 0 ∧
      (returnCalls w (env::envs)).platform = w.platform++releases env.release w.info := by
  obtain ⟨hbal,hinfo,hpla⟩ := returnPreConsumedQuota_paid hfrozen
  obtain ⟨hbal',hinfo',hpla'⟩ := returnCalls_unheld (returnPreConsumedQuota env w)
    (by rw [hinfo]; exact hfrozen) (by rw [hinfo]; exact min_le_right _ _)
  have hcalls : returnCalls w (env::envs) = returnCalls (returnPreConsumedQuota env w) envs := rfl
  have hpaid := paid_paid w.ledger.balances w.info w.info.finalPreConsumedQuota (userShare env w.info)
    (tokenShare env w.info) (userShares envs w.info) (tokenShares envs w.info)
  rw [hcalls,hbal',hinfo',hpla',hpla,hbal,hinfo]
  simp only [userShares,tokenShares,userShare_unheld,tokenShare_unheld] at hpaid ⊢
  exact ⟨hpaid,trivial,trivial⟩

lemma charge_both_eq_self (b : Balances) :
    (b.chargeToken t x).chargeUser u y = b ↔ (b.chargeToken t x).token = b.token ∧ (b.chargeUser u y).user = b.user :=
  ⟨fun h => ⟨(congrArg token h :),(congrArg Balances.user h :)⟩,fun h => Balances.ext h.2 h.1 rfl rfl⟩

lemma paid_charge_eq_iff (hpos : 0 < frozen) :
    paid (charge b info frozen) info frozen u t = b ↔ (b.user info.userId = none ∨ u = 1) ∧
        (info.isPlayground ∨ b.token info.tokenId = none ∨ t = 1) := by
  have hshare (x : ℤ) : frozen+ -(frozen*x) = 0 ↔ x = 1 := by
    have hfac : frozen+ -(frozen*x) = frozen*(1-x) := by rw [mul_sub]; omega
    rw [hfac,mul_eq_zero]
    omega
  have hsum : paid (charge b info frozen) info frozen u t =
      (b.chargeToken info.tokenId (tokenFreeze info (frozen+ -(frozen*t)))).chargeUser info.userId
        (frozen+ -(frozen*u)) := by
    simp [paid,charge,chargeUser_chargeToken,tokenFreeze_add]
  rw [hsum,charge_both_eq_self,chargeToken_token_eq,chargeUser_user_eq,hshare]
  have htoken : tokenFreeze info (frozen+ -(frozen*t)) = 0 ↔ info.isPlayground ∨ t = 1 := by
    unfold tokenFreeze
    split
    · next h => simp [h]
    · next h => simp [h,hshare]
  rw [htoken,and_comm,or_comm (a := u = 1),or_assoc,or_comm (a := t = 1)]

structure Restored (before admitted after : World) : Prop where
  balances : after.ledger.balances = before.ledger.balances
  hold : 0 < after.info.platformPreAuthID ↔ 0 < before.info.platformPreAuthID
  released : ∃ d ≠ Delivery.lost, after.platform = admitted.platform++releases d admitted.info

/-- The first call pays one share to each account with a row, the later ones none in sum. -/
def RefundsOnce (b : Balances) (info : RelayInfo) (env : PostEnv) (envs : List PostEnv) : Prop :=
  (b.user info.userId = none ∨ userShare env info = 1 ∧ userShares envs info = 0) ∧
    (info.isPlayground = true ∨ b.token info.tokenId = none ∨ tokenShare env info = 1 ∧ tokenShares envs info = 0)

/-- The request had no hold before, its hold is let go, and nothing was frozen and the attempt left
no trace, or the freeze is refunded once. -/
def ReturnsCleanly (before admitted : World) (env : PostEnv) (envs : List PostEnv) : Prop :=
  before.info.platformPreAuthID ≤ 0 ∧ (0 < admitted.info.platformPreAuthID → env.release ≠ .lost) ∧
    if admitted.info.finalPreConsumedQuota = 0 then admitted.ledger.balances = before.ledger.balances
    else RefundsOnce before.ledger.balances admitted.info env envs

lemma exists_releases_iff (env : PostEnv) (info : RelayInfo) (events : List PlatformEvent) :
    (∃ d ≠ Delivery.lost, events++releases env.release info = events++releases d info) ↔
      (0 < info.platformPreAuthID → env.release ≠ .lost) := by
  by_cases hheld : 0 < info.platformPreAuthID
  · simp [releases,hheld]
  · simp only [releases,hheld,if_false,false_implies,iff_true]
    exact ⟨.live,by decide⟩

lemma restored_returnCalls_iff (before : World) (hnonneg : 0 ≤ admitted.info.finalPreConsumedQuota)
    (env : PostEnv) (envs : List PostEnv) : Restored before admitted (returnCalls admitted (env::envs)) ↔
      before.info.platformPreAuthID ≤ 0 ∧ (0 < admitted.info.platformPreAuthID → env.release ≠ .lost) ∧
        paid admitted.ledger.balances admitted.info admitted.info.finalPreConsumedQuota
          (userShare env admitted.info+userShares envs admitted.info)
          (tokenShare env admitted.info+tokenShares envs admitted.info) = before.ledger.balances := by
  obtain ⟨hbal,hhold,hpla⟩ := returnCalls_paid envs hnonneg
  have hrele := exists_releases_iff env admitted.info admitted.platform
  rw [← hpla] at hrele
  have hunheld : ¬ 0 < (returnCalls admitted (env::envs)).info.platformPreAuthID := by
    omega
  rw [← hrele,← hbal]
  constructor
  · rintro ⟨hbala,hhold,hrel⟩
    exact ⟨Int.not_lt.mp fun h => hunheld (hhold.mpr h),hrel,hbala⟩
  · rintro ⟨hbefore,hrel,hbala⟩
    exact ⟨hbala,iff_of_false hunheld (Int.not_lt.mpr hbefore),hrel⟩

lemma refundsOnce_iff (hpos : 0 < frozen) :
    (paid (charge b info frozen) info frozen (userShare env info) (tokenShare env info) = b ∧
      paid (charge b info frozen) info frozen (userShare env info+userShares envs info)
        (tokenShare env info+tokenShares envs info) = b) ↔ RefundsOnce b info env envs := by
  have hsplit (x y : ℤ) : x = 1 ∧ x+y = 1 ↔ x = 1 ∧ y = 0 := by omega
  rw [paid_charge_eq_iff hpos,paid_charge_eq_iff hpos,RefundsOnce,← hsplit,← hsplit,
    and_and_and_comm,← or_and_left,← or_and_left,← or_and_left]

theorem returnCalls_restored_iff (pre : PreEnv) {estimate : ℤ} (w : World) (he : 0 ≤ estimate)
    (hadmitted : (preConsumeQuota pre estimate w).2 = none) (env : PostEnv) (envs : List PostEnv) :
    let admitted := (preConsumeQuota pre estimate w).1
    (Restored w admitted (returnPreConsumedQuota env admitted) ∧
      Restored w admitted (returnCalls admitted (env::envs))) ↔ ReturnsCleanly w admitted env envs := by
  intro admitted
  obtain ⟨hcal,(hnonneg : 0 ≤ admitted.info.finalPreConsumedQuota),hcha⟩ := admitted_charged he hadmitted
  have hone := restored_returnCalls_iff w hnonneg env []
  have hall := restored_returnCalls_iff w hnonneg env envs
  have hcall : returnCalls admitted [env] = returnPreConsumedQuota env admitted := rfl
  have hnone : userShares [] admitted.info = 0 ∧ tokenShares [] admitted.info = 0 := ⟨rfl,rfl⟩
  rw [hcall,hnone.1,hnone.2,add_zero,add_zero] at hone
  rw [hone,hall,ReturnsCleanly]
  by_cases hzero : admitted.info.finalPreConsumedQuota = 0
  · rw [if_pos hzero,hzero,paid_zero,paid_zero,and_self]
  · rw [if_neg hzero,← refundsOnce_iff
      (show 0 < admitted.info.finalPreConsumedQuota by omega),charge_congr hcal,← hcha (.inl hzero),
      ← and_and_left,← and_and_left]

def linkedWorld : World where
  ledger :=
    { users := fun id => if id = 1 then some 100 else none
      tokens := fun id => if id = 1 then some ⟨100,0,""⟩ else none
      userBatch := fun _ => 0
      tokenBatch := fun _ => 0
      pools := ⟨⟨[],by simp⟩,[],⟨[],by simp⟩⟩ }
  info := { userId := 1, tokenId := 1, isPlayground := false, tokenUnlimited := false, identityAccountID := 0 }
  platform := []

def linkedEnv : PreEnv := { userQuota := some 100, trustQuota := 1000 }

theorem returnCalls_restored_linked : Restored linkedWorld (preConsumeQuota linkedEnv 50 linkedWorld).1
      (returnPreConsumedQuota {} (preConsumeQuota linkedEnv 50 linkedWorld).1) :=
  ((returnCalls_restored_iff linkedEnv linkedWorld (by decide : (0 : ℤ) ≤ 50) (by decide) {} []).mpr
    ⟨by decide,by decide,by rw [if_neg (by decide)]; exact ⟨.inr (by decide),.inr (.inr (by decide))⟩⟩).1

theorem returnCalls_twice_overpays : (preConsumeQuota linkedEnv 50 linkedWorld).2 = none ∧
      let twice := returnCalls (preConsumeQuota linkedEnv 50 linkedWorld).1 [{},{}]
      linkedWorld.ledger.balances.user 1 = some 100 ∧ twice.ledger.balances.user 1 = some 150 ∧
        linkedWorld.ledger.balances.token 1 = some (100,0) ∧ twice.ledger.balances.token 1 = some (150,-50) ∧
        ¬ Restored linkedWorld (preConsumeQuota linkedEnv 50 linkedWorld).1 twice := by
  refine ⟨by decide,by decide,by decide,by decide,by decide,fun h => ?_⟩
  have huser := congrFun (congrArg user h.balances) 1
  revert huser
  decide

end LurusHub.FreezeReturn
