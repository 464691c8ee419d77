import LurusHub.RealtimeSession
import Mathlib.Tactic.Positivity

/-! A realtime session's charges against its consume row. Every charge is exact up to one unit, so
charges and row agree up to one unit each, as long as the row sees every charged usage and is priced
alike. -/
namespace LurusHub.RealtimeSession
open Decimal QuotaLedger PreConsume PostConsume SettledCost Transition List Teardown Option RealtimeLedger

section amounts
variable (r : Ratios) (info : WssInfo)

def amount (u : RealtimeUsage) : ℚ := tokenAmount r (liveQuotaInfo r info u)

def wssQuota (u : RealtimeUsage) : ℤ := (calculateAudioQuota r (liveQuotaInfo r info u)).toInt

@[simp] lemma amount_empty : amount r info {} = 0 := by simp [amount,tokenAmount,liveQuotaInfo]

end amounts

@[mk_iff] structure Plausible (u : RealtimeUsage) : Prop where
  inputText : 0 ≤ u.inputTokenDetails.textTokens.toInt
  inputAudio : 0 ≤ u.inputTokenDetails.audioTokens.toInt
  outputText : 0 ≤ u.outputTokenDetails.textTokens.toInt
  outputAudio : 0 ≤ u.outputTokenDetails.audioTokens.toInt
  total : u.inputTokenDetails.textTokens.toInt+u.inputTokenDetails.audioTokens.toInt
    +u.outputTokenDetails.textTokens.toInt+u.outputTokenDetails.audioTokens.toInt ≤ u.totalTokens.toInt

instance (u : RealtimeUsage) : Decidable (Plausible u) := decidable_of_iff _ (plausible_iff u).symm

lemma plausible_empty : Plausible {} := by decide

lemma toInt_add_of_lt {a b : Int64} (ha : 0 ≤ a.toInt) (hb : 0 ≤ b.toInt) (h : a.toInt+b.toInt < 2^63) :
    (a+b).toInt = a.toInt+b.toInt := by
  rw [Int64.toInt_add,Int.bmod_eq_of_le] <;> omega

section
variable {u : RealtimeUsage} (hu : Plausible u)
include hu

lemma Plausible.total_nonneg : 0 ≤ u.totalTokens.toInt := by
  obtain ⟨h₁,h₂,h₃,h₄,h₅⟩ := hu
  omega

lemma Plausible.add {v : RealtimeUsage} (hv : Plausible v) (hfit : u.totalTokens.toInt+v.totalTokens.toInt < 2^63)
    (r : Ratios) (info : WssInfo) : Plausible (addRealtimeUsage u v) ∧
      (addRealtimeUsage u v).totalTokens.toInt = u.totalTokens.toInt+v.totalTokens.toInt ∧
      amount r info (addRealtimeUsage u v) = amount r info u+amount r info v := by
  have htotal := toInt_add_of_lt hu.total_nonneg hv.total_nonneg hfit
  obtain ⟨hu₁,hu₂,hu₃,hu₄,hu₅⟩ := hu
  obtain ⟨hv₁,hv₂,hv₃,hv₄,hv₅⟩ := hv
  have h₁ := toInt_add_of_lt hu₁ hv₁ (by omega)
  have h₂ := toInt_add_of_lt hu₂ hv₂ (by omega)
  have h₃ := toInt_add_of_lt hu₃ hv₃ (by omega)
  have h₄ := toInt_add_of_lt hu₄ hv₄ (by omega)
  refine ⟨?_,htotal,?_⟩
  · constructor <;> simp only [addRealtimeUsage,h₁,h₂,h₃,h₄,htotal] <;> omega
  · simp only [amount,tokenAmount,liveQuotaInfo,addRealtimeUsage,ofInt64,h₁,h₂,h₃,h₄]
    push_cast
    ring

lemma Plausible.amount_nonneg : 0 ≤ amount r info u := by
  obtain ⟨h₁,h₂,h₃,h₄,_⟩ := hu
  simp only [amount,tokenAmount,liveQuotaInfo,ofInt64]
  positivity

lemma Plausible.amount_zero (htotal : u.totalTokens = 0) : amount r info u = 0 := by
  obtain ⟨h₁,h₂,h₃,h₄,h₅⟩ := hu
  rw [htotal,Int64.toInt_zero] at h₅
  have hit : u.inputTokenDetails.textTokens.toInt = 0 := by omega
  have hia : u.inputTokenDetails.audioTokens.toInt = 0 := by omega
  have hot : u.outputTokenDetails.textTokens.toInt = 0 := by omega
  have hoa : u.outputTokenDetails.audioTokens.toInt = 0 := by omega
  simp [amount,tokenAmount,liveQuotaInfo,ofInt64,hit,hia,hot,hoa]

end

lemma calculateAudioQuota_near {info : QuotaInfo} (huse : info.usePrice = false) (hamount : 0 ≤ tokenAmount r info)
    (hfit : tokenAmount r info < 2^63-1/2) : |((calculateAudioQuota r info).toInt : ℚ)-tokenAmount r info| ≤ 1 := by
  by_cases hratio : info.groupRatio*info.modelRatio = 0
  · have hzero : tokenAmount r info = 0 := by
      have hcast : (info.groupRatio*info.modelRatio : ℚ) = 0 := by exact_mod_cast hratio
      rw [tokenAmount,hcast,mul_zero]
    simp [calculateAudioQuota,huse,hratio,hzero]
  · have hnear := abs_roundHalfAway_sub_le (tokenAmount r info)
    rw [← toInt_intPart hamount hfit] at hnear
    by_cases hpos : tokenAmount r info ≤ 0
    · have hzero : tokenAmount r info = 0 := le_antisymm hpos hamount
      simp [calculateAudioQuota,huse,hratio,hzero]
    · by_cases hround : intPart (tokenAmount r info) = 0
      · -- a fraction below half a unit still costs one
        have hone : calculateAudioQuota r info = 1 := by simp [calculateAudioQuota,huse,hratio,hpos,hround]
        rw [hround,Int64.toInt_zero,abs_le] at hnear
        rw [hone,Int64.toInt_one,abs_le]
        push_cast at hnear ⊢
        constructor <;> linarith
      · simp only [calculateAudioQuota,huse,hpos,hround,Bool.false_eq_true,if_false,ne_eq,and_false]
        linarith

/-! The frozen price and the live one. -/

structure Plain (r : Ratios) (q : Request) : Prop where
  sameName : q.upstreamModelName = q.originModelName
  noTier : r.contextTiers q.originModelName = []
  pricedAutoGroup : q.pricedAutoGroup = none
  autoGroup : q.autoGroup = none
  noSpecial : r.groupGroupRatio q.userGroup q.usingGroup = none

structure PerToken (r : Ratios) (q : Request) : Prop where
  noPrice : r.modelPrice q.originModelName = none
  noFree : (r.modelRatio q.originModelName).2 = true ∨ q.openRouterFree = false

lemma frozenQuotaInfo_eq (hplain : Plain r q) (htoken : PerToken r q) :
    frozenQuotaInfo r (relayInfo r q) u = liveQuotaInfo r (relayInfo r q) u := by
  have hpriced : (r.modelRatio q.originModelName).2 = false → q.openRouterFree →
      0 = (r.modelRatio q.originModelName).1 := by
    intro hset hfree
    rcases htoken.noFree with h | h
    · simp [hset] at h
    · simp [hfree] at h
  simpa [frozenQuotaInfo,liveQuotaInfo,relayInfo,modelPriceHelper,htoken.noPrice,hplain.noTier,hplain.sameName,
    Pricing.resettleContextTier,Pricing.getContextLengthTier,Pricing.PriceData.override,
    hplain.pricedAutoGroup,hplain.autoGroup] using hpriced

lemma rowQuota_near (hplain : Plain r q) (htoken : PerToken r q) (hu : Plausible u)
    (hfit : amount r (relayInfo r q) u < 2^63-1/2) : |(rowQuota r (relayInfo r q) u : ℚ)-amount r (relayInfo r q) u| ≤ 1 := by
  by_cases htotal : u.totalTokens = 0
  · simp [rowQuota,htotal,hu.amount_zero htotal]
  · rw [rowQuota,if_neg htotal,frozenQuotaInfo_eq hplain htoken]
    exact calculateAudioQuota_near rfl hu.amount_nonneg hfit

lemma charges_near (huse : info.usePrice = false) {us : List RealtimeUsage}
    (hus : ∀ u ∈ us, Plausible u) (hfit : (us.map (amount r info)).sum < 2^63-1/2) :
    |(((us.map (wssQuota r info)).sum : ℤ) : ℚ)-(us.map (amount r info)).sum| ≤ us.length := by
  induction us with
  | nil => simp
  | cons u us ih =>
    obtain ⟨hu,hus⟩ := forall_mem_cons.mp hus
    rw [map_cons,sum_cons] at hfit
    have hsum : 0 ≤ (us.map (amount r info)).sum := sum_nonneg (by simpa using fun v hv => (hus v hv).amount_nonneg)
    have hnonneg : 0 ≤ amount r info u := hu.amount_nonneg
    have hhere : |(wssQuota r info u : ℚ)-amount r info u| ≤ 1 :=
      calculateAudioQuota_near huse hnonneg (by simp only [amount] at hfit hsum ⊢; linarith)
    have hrest := ih hus (by linarith)
    simp only [map_cons,sum_cons,length_cons]
    rw [abs_le] at hhere hrest ⊢
    push_cast at hhere hrest ⊢
    constructor <;> linarith

/-! One charge. -/

lemma postConsumeQuota_info (env : PostEnv) (quota pre : ℤ) (w : World) :
    (postConsumeQuota env quota pre w).1.info.userId = w.info.userId ∧
    (postConsumeQuota env quota pre w).1.info.finalPreConsumedQuota = w.info.finalPreConsumedQuota := by
  have hwallet : ∀ (total : ℤ) (consistent advisory : Bool) (w : World),
      (settlePlatformWallet env total pre consistent advisory w).info.userId = w.info.userId ∧
      (settlePlatformWallet env total pre consistent advisory w).info.finalPreConsumedQuota =
        w.info.finalPreConsumedQuota := by
    intro total consistent advisory w
    have hrel : (abandonPreAuth env.release w).info.userId = w.info.userId ∧
        (abandonPreAuth env.release w).info.finalPreConsumedQuota = w.info.finalPreConsumedQuota := by
      unfold abandonPreAuth
      split <;> simp
    unfold settlePlatformWallet
    split_ifs <;> simp [settleOrPark,hrel]
  unfold postConsumeQuota
  split
  · exact ⟨rfl,rfl⟩
  · exact hwallet _ _ _ _

def WritesLand (post : PostEnv) : Prop := post.userWriteFails = false ∧ post.tokenWriteFails = false
  deriving Decidable

lemma postConsumeQuota_user (hw : WritesLand post) (quota pre : ℤ) (w : World) :
    (postConsumeQuota post quota pre w).1.ledger.balances.user w.info.userId =
      (w.ledger.balances.user w.info.userId).map (·-quota) ∧
    (postConsumeQuota post quota pre w).2 = none := by
  obtain ⟨l₁,-,hbal,hnone⟩ := postConsumeQuota_legs hw.1 hw.2 quota pre w
  refine ⟨?_,hnone⟩
  rw [hbal]
  simp [charge]

/-- Reads and writes of a charge succeed, and the quota that is read suffices. -/
def ChargeSucceeds (r : Ratios) (info : WssInfo) (env : ChargeEnv) (u : RealtimeUsage) : Prop :=
  env.userQuota.any (fun userQuota => wssQuota r info u ≤ userQuota) = true ∧
  env.token.any (fun t => t.1 || wssQuota r info u ≤ t.2) = true ∧ WritesLand env.post
  deriving Decidable

lemma preWssConsumeQuota_ok (huse : info.usePrice = false) (h : ChargeSucceeds r info env u) :
    preWssConsumeQuota r info env u w = ((postConsumeQuota env.post (wssQuota r info u) 0 w).1,none) := by
  obtain ⟨henough,hremain,hw⟩ := h
  cases huser : env.userQuota with
  | none => simp [huser] at henough
  | some userQuota =>
    cases htoken : env.token with
    | none => simp [htoken] at hremain
    | some t =>
      have hnone := (postConsumeQuota_user hw (wssQuota r info u) 0 w).2
      simp only [huser,htoken,any_some,Bool.or_eq_true,wssQuota] at henough hremain hnone
      have hquota := not_lt.mpr (of_decide_eq_true henough)
      have hcap : ¬ (t.1 = false ∧ t.2 < (calculateAudioQuota r (liveQuotaInfo r info u)).toInt) := by
        rintro ⟨hlimited,hless⟩
        rcases hremain with hunl | hremain
        · simp [hlimited] at hunl
        · exact absurd (of_decide_eq_true hremain) (not_le.mpr hless)
      simp [preWssConsumeQuota,huse,huser,htoken,hquota,hcap,wssQuota,hnone]

/-! The session. -/

namespace Teardown

def pending : Teardown → List RealtimeUsage
  | .drained u => [u]
  | _ => []

def held (frozen : ℤ) : Teardown → ℤ
  | .logged _ => 0
  | _ => frozen

/-- The row is, or will be, that of the whole sum. -/
def Agrees (r : Ratios) (info : WssInfo) (sum : RealtimeUsage) : Teardown → Prop
  | .snapped u => u = sum
  | .logged quota => quota = rowQuota r info sum
  | _ => True

def isOpen : Teardown → Bool
  | .snapped _ | .logged _ => false
  | _ => true

lemma Agrees.of_open {t : Teardown} (h : t.isOpen) (sum : RealtimeUsage) : t.Agrees r info sum := by
  cases t with
  | snapped u | logged quota => simp [isOpen] at h
  | _ => trivial

end Teardown

def Session.pending (s : Session) : List RealtimeUsage := s.charging.toList++s.teardown.pending

structure Accounts (r : Ratios) (info : WssInfo) (id : ℕ) (before : Option ℤ) (frozen : ℤ) (s : Session) : Prop where
  userId : s.world.info.userId = id
  freeze : s.world.info.finalPreConsumedQuota = frozen
  user : s.world.ledger.balances.user id =
    before.map (·-(s.teardown.held frozen+(s.billed.map (wssQuota r info)).sum))
  sum : amount r info s.ledger.sum = (s.billed.map (amount r info)).sum+(s.pending.map (amount r info)).sum
  saneLocal : Plausible s.ledger.unbilled
  saneSum : Plausible s.ledger.sum
  sane : ∀ u ∈ s.billed++s.pending, Plausible u
  agrees : s.teardown.Agrees r info s.ledger.sum
  small : amount r info s.ledger.sum < 2^63-1/2

def Succeeds (r : Ratios) (info : WssInfo) (s : Session) : Label → Prop
  | .charge env => ∀ u ∈ s.charging, ChargeSucceeds r info env u
  | .drainCharge env => ∀ u ∈ s.teardown.pending, ChargeSucceeds r info env u
  | .post env => WritesLand env
  | _ => True

/-- The counts that the label brings into the ledger. -/
def Label.usage : Label → RealtimeUsage
  | .clientEvent text audio | .responseDone none text audio => addLocalInput {} text audio
  | .targetEvent text audio => addLocalOutput {} text audio
  | .responseDone (some u) _ _ => u
  | _ => {}

def WellFormed (l : Label) : Prop := Plausible l.usage
  deriving Decidable

/-- All that is counted stays within a word, in tokens and in units. -/
def Fits (r : Ratios) (info : WssInfo) (s : Session) (l : Label) : Prop :=
  s.ledger.sum.totalTokens.toInt+s.ledger.unbilled.totalTokens.toInt+l.usage.totalTokens.toInt < 2^63 ∧
    amount r info s.ledger.sum+amount r info s.ledger.unbilled+amount r info l.usage < 2^63-1/2
  deriving Decidable

lemma addLocalInput_eq (u : RealtimeUsage) (text audio : Int64) :
    addLocalInput u text audio = addRealtimeUsage u (addLocalInput {} text audio) := by
  simp [addLocalInput,addRealtimeUsage]

lemma addLocalOutput_eq (u : RealtimeUsage) (text audio : Int64) :
    addLocalOutput u text audio = addRealtimeUsage u (addLocalOutput {} text audio) := by
  simp [addLocalOutput,addRealtimeUsage]

/-- No response is settled once the sum is copied for the row. -/
def Timely (s : Session) : Label → Prop
  | .responseDone _ _ _ => s.teardown.isOpen = true
  | _ => True

section run
variable {id : ℕ}

section
variable (h : Accounts r info id before frozen s)
include h

theorem Accounts.turn (hheld : teardown.held frozen = s.teardown.held frozen)
    (hsum : amount r info ledger.sum+(s.pending.map (amount r info)).sum =
      amount r info s.ledger.sum+((charging.toList++teardown.pending).map (amount r info)).sum)
    (hloc : Plausible ledger.unbilled) (hsane : Plausible ledger.sum)
    (hpen : ∀ u ∈ charging.toList++teardown.pending, Plausible u) (hagr : teardown.Agrees r info ledger.sum)
    (hsmall : amount r info ledger.sum < 2^63-1/2) :
    Accounts r info id before frozen { s with ledger, charging, teardown } where
  userId := h.userId
  freeze := h.freeze
  user := hheld ▸ h.user
  sum := by
    have hbefore := h.sum
    simp only [Session.pending] at hbefore hsum ⊢
    linarith
  saneLocal := hloc
  saneSum := hsane
  sane := fun v hv => (mem_append.mp hv).elim (fun hb => h.sane v (mem_append_left _ hb)) (hpen v)
  agrees := hagr
  small := hsmall

lemma Accounts.settle (hidle : s.readerIdle) (hopen : s.teardown.isOpen) (hu : Plausible u)
    (hfit : s.ledger.sum.totalTokens.toInt+u.totalTokens.toInt < 2^63)
    (hsmall : amount r info s.ledger.sum+amount r info u < 2^63-1/2) :
    Accounts r info id before frozen
      { s with ledger := ⟨{},addRealtimeUsage s.ledger.sum u⟩, charging := some u } := by
  have hnone : s.charging = none := by
    simp only [Session.readerIdle,Bool.and_eq_true,isNone_iff_eq_none] at hidle
    exact hidle.1
  obtain ⟨hplau,-,hadd⟩ := h.saneSum.add hu hfit r info
  refine h.turn rfl ?_ plausible_empty hplau (forall_mem_cons.mpr ⟨hu,fun v hv => ?_⟩) (.of_open hopen _) (hadd ▸ hsmall)
  · simp [Session.pending,hnone,hadd,add_assoc]
  · exact h.sane v (mem_append_right _ (mem_append_right _ hv))

lemma Accounts.count (hu : Plausible u) :
    Accounts r info id before frozen { s with ledger := { s.ledger with unbilled := u } } :=
  { h with saneLocal := hu }

lemma Accounts.charged (huse : info.usePrice = false) (henv : ChargeSucceeds r info env u)
    (hpending : s.pending.Perm (u::(charging.toList++teardown.pending)))
    (hheld : teardown.held frozen = s.teardown.held frozen) (hagr : teardown.Agrees r info s.ledger.sum) :
    ∃ world, preWssConsumeQuota r info env u s.world = (world,none) ∧
      Accounts r info id before frozen { s with world, charging, teardown, billed := s.billed++[u] } := by
  have hinfo := postConsumeQuota_info env.post (wssQuota r info u) 0 s.world
  have huser := (postConsumeQuota_user henv.2.2 (wssQuota r info u) 0 s.world).1
  refine ⟨_,preWssConsumeQuota_ok huse henv,?_⟩
  refine ⟨hinfo.1.trans h.userId,hinfo.2.trans h.freeze,?_,?_,h.saneLocal,h.saneSum,?_,hagr,h.small⟩
  · rw [h.userId,h.user,Option.map_map] at huser
    simp only [huser,hheld,map_append,sum_append,map_singleton,sum_singleton]
    congr 1
    funext b
    simp only [Function.comp_apply]
    ring
  · have hmov := (hpending.map (amount r info)).sum_eq
    rw [h.sum,hmov]
    simp only [Session.pending,map_append,sum_append,map_cons,sum_cons,map_nil,sum_nil]
    ring
  · intro v hv
    apply h.sane v
    have hperm := hpending.mem_iff (a := v)
    simp only [Session.pending,mem_append,mem_cons] at hv hperm ⊢
    tauto

lemma Accounts.drain (hserving : s.teardown = .serving)
    (hfit : s.ledger.sum.totalTokens.toInt+s.ledger.unbilled.totalTokens.toInt < 2^63)
    (hsmall : amount r info s.ledger.sum+amount r info s.ledger.unbilled < 2^63-1/2) : Accounts r info id before frozen
      { s with ledger := s.ledger.drainLocal.1, teardown := .drained s.ledger.drainLocal.2 } := by
  obtain ⟨hplau,-,hadd⟩ := h.saneSum.add h.saneLocal hfit r info
  refine h.turn (by rw [hserving]; rfl) ?_ plausible_empty hplau (fun v hv => ?_) trivial (hadd ▸ hsmall)
  · simp [Session.pending,hserving,pending,drainLocal,hadd]
    ring
  · rcases mem_append.mp hv with hv | hv
    · exact h.sane v (mem_append_right _ (mem_append_left _ hv))
    · exact mem_singleton.mp hv ▸ h.saneLocal

theorem Accounts.dropped (hdra : s.teardown = .drained u)
    (htotal : u.totalTokens = 0) : Accounts r info id before frozen { s with teardown := .closing } := by
  have hu : Plausible u := h.sane u (by simp [Session.pending,hdra,pending])
  refine h.turn (by rw [hdra]; rfl) ?_ h.saneLocal h.saneSum (fun v hv => h.sane v ?_) trivial h.small
  · simp [Session.pending,hdra,pending,hu.amount_zero htotal]
  · simp only [pending,append_nil] at hv
    simp [Session.pending,hv]

lemma Accounts.snapshot (hclo : s.teardown = .closing) :
    Accounts r info id before frozen { s with teardown := .snapped s.ledger.sum } := by
  refine h.turn (by rw [hclo]; rfl) ?_ h.saneLocal h.saneSum (fun v hv => h.sane v ?_) rfl h.small
  · simp [Session.pending,hclo,pending]
  · simpa [Session.pending,hclo,pending] using Or.inr hv

lemma Accounts.post {sum : RealtimeUsage} (hsna : s.teardown = .snapped sum)
    (henv : WritesLand env) : Accounts r info id before frozen
      { s with world := (postWssConsumeQuota r info env sum s.world).1
               teardown := .logged (postWssConsumeQuota r info env sum s.world).2 } := by
  have hcopy : sum = s.ledger.sum := by simpa [hsna,Teardown.Agrees] using h.agrees
  have huser := h.user
  simp only [hsna,held] at huser
  have hrest : ∀ world : World, world.info.userId = id → world.info.finalPreConsumedQuota = frozen →
      world.ledger.balances.user id = before.map (·-(0+(s.billed.map (wssQuota r info)).sum)) →
      Accounts r info id before frozen { s with world, teardown := .logged (rowQuota r info sum) } := by
    intro world hid hfrozen hwor
    refine ⟨hid,hfrozen,hwor,?_,h.saneLocal,h.saneSum,?_,?_,h.small⟩
    · simpa [Session.pending,hsna,pending] using h.sum
    · simpa [Session.pending,hsna,pending] using h.sane
    · simp [Teardown.Agrees,hcopy]
  simp only [postWssConsumeQuota,h.freeze]
  by_cases hfrozen : frozen = 0
  · subst hfrozen
    simp only [ne_eq]
    exact hrest s.world h.userId h.freeze huser
  · have hinfo := postConsumeQuota_info env (0-frozen) frozen s.world
    have hback := (postConsumeQuota_user henv (0-frozen) frozen s.world).1
    rw [h.userId,huser,Option.map_map] at hback
    simp only [ne_eq,hfrozen]
    apply hrest _ (hinfo.1.trans h.userId) (hinfo.2.trans h.freeze)
    rw [hback]
    congr 1
    funext b
    simp only [Function.comp_apply]
    ring

end

lemma accounts_step (huse : info.usePrice = false) {l : Label} (h : Accounts r info id before frozen s)
    (hok : Succeeds r info s l) (hform : WellFormed l) (htimely : Timely s l) (hfits : Fits r info s l) :
    Accounts r info id before frozen (step r info s l) := by
  obtain ⟨htokens,hunits⟩ := hfits
  have hsum := h.saneSum.total_nonneg
  have hlocal := h.saneLocal.total_nonneg
  have hpaid : 0 ≤ amount r info s.ledger.unbilled := h.saneLocal.amount_nonneg
  obtain ⟨hplau,hcount,hadd⟩ := h.saneLocal.add hform (by omega) r info
  cases l with
  | clientEvent text audio =>
    rw [step,addLocalInput_eq]
    exact h.count hplau
  | targetEvent text audio =>
    by_cases hidle : s.readerIdle = true
    · rw [step,if_pos hidle,addLocalOutput_eq]
      exact h.count hplau
    · simpa [step,hidle] using h
  | responseDone usage text audio =>
    by_cases hidle : s.readerIdle = true
    · cases usage with
      | some u =>
        have hnext := h.settle hidle htimely hform (by omega) (by linarith)
        simpa [step,hidle,settleUpstream,Label.usage] using hnext
      | none =>
        have hnext := h.settle hidle htimely hplau (by omega) (by linarith)
        simpa [step,hidle,settleLocalInput,addLocalInput_eq s.ledger.unbilled,Label.usage] using hnext
    · simpa [step,hidle] using h
  | charge env =>
    cases hcha : s.charging with
    | none => simpa [step,hcha] using h
    | some u =>
      have hpending : s.pending.Perm (u::((none : Option RealtimeUsage).toList++s.teardown.pending)) := by
        simp [Session.pending,hcha]
      obtain ⟨world,hpre,hnext⟩ := h.charged huse (hok u hcha) hpending rfl h.agrees
      simpa [step,hcha,chargeReader,hpre] using hnext
  | readerEnds =>
    by_cases hidle : s.readerIdle = true
    · simpa [step,hidle] using ({ h with } : Accounts r info id before frozen { s with readerEnded := true })
    · simpa [step,hidle] using h
  | drain =>
    cases ht : s.teardown with
    | serving => simpa [step,ht] using h.drain ht (by simpa [Label.usage] using htokens) (by simpa [Label.usage] using hunits)
    | _ => simpa [step,ht] using h
  | drainCharge env =>
    cases ht : s.teardown with
    | drained u =>
      have hu : u ∈ s.teardown.pending := by simp [ht,pending]
      by_cases htotal : u.totalTokens = 0
      · simpa [step,ht,chargeDrained,htotal] using h.dropped ht htotal
      · have hpending : s.pending.Perm (u::(s.charging.toList++closing.pending)) := by
          simp only [Session.pending,ht,pending,append_nil]
          exact perm_append_singleton u _
        obtain ⟨world,hpre,hnext⟩ := h.charged huse (hok u hu) hpending (by rw [ht]; rfl) trivial
        simpa [step,ht,chargeDrained,htotal,hpre] using hnext
    | _ => simpa [step,ht] using h
  | snapshot =>
    cases ht : s.teardown with
    | closing => simpa [step,ht] using h.snapshot ht
    | _ => simpa [step,ht] using h
  | post env =>
    cases ht : s.teardown with
    | snapped sum => simpa [step,ht] using h.post ht hok
    | _ => simpa [step,ht] using h

end run

lemma accounts_start (hpre : pre.tokenWriteFails = false ∧ pre.userWriteFails = false)
    (he : 0 ≤ est) (hfresh : w.info.finalPreConsumedQuota = 0) (hadmitted : admission freeModel pre est w = (w₁,none)) :
    Accounts r info w.info.userId (w.ledger.balances.user w.info.userId) w₁.info.finalPreConsumedQuota { world := w₁ } := by
  have hpaid : w₁.info.userId = w.info.userId ∧ w₁.ledger.balances.user w.info.userId =
      (w.ledger.balances.user w.info.userId).map (·-w₁.info.finalPreConsumedQuota) := by
    cases freeModel with
    | true =>
      obtain rfl : w = w₁ := by simpa [admission] using hadmitted
      simp [hfresh]
    | false =>
      have hres : preConsumeQuota pre est w = (w₁,none) := by simpa [admission] using hadmitted
      obtain ⟨hcal,-,hbal⟩ := admitted_charged he (congrArg Prod.snd hres)
      rw [hres] at hcal hbal
      refine ⟨hcal.1,?_⟩
      rw [hbal (.inr hpre)]
      simp [charge]
  refine ⟨hpaid.1,rfl,?_,?_,plausible_empty,plausible_empty,?_,trivial,by norm_num⟩
  · simpa [held] using hpaid.2
  · simp [Session.pending,pending]
  · simp [Session.pending,pending]

/-- The user pays what the row says, up to one unit for each charge and the row. -/
theorem session_charged_as_logged (hplain : Plain r q) (htoken : PerToken r q)
    (hpre : pre.tokenWriteFails = false ∧ pre.userWriteFails = false) (he : 0 ≤ estimate)
    (hfresh : w.info.finalPreConsumedQuota = 0) (hadmitted : admission freeModel pre estimate w = (w₁,none))
    {ls : List Label} (hform : ∀ l ∈ ls, WellFormed l)
    (hok : Along (step r (relayInfo r q)) (Succeeds r (relayInfo r q)) { world := w₁ } ls)
    (htimely : Along (step r (relayInfo r q)) Timely { world := w₁ } ls)
    (hfits : Along (step r (relayInfo r q)) (Fits r (relayInfo r q)) { world := w₁ } ls) {s : Session}
    (hrun : run (step r (relayInfo r q)) { world := w₁ } ls = s) (hdone : s.charging = none) {row : ℤ}
    (hlogged : s.teardown = .logged row) {b : ℤ} (hb : w.ledger.balances.user w.info.userId = some b) :
    ∃ b', s.world.ledger.balances.user w.info.userId = some b' ∧ |b-b'-row| ≤ s.billed.length+1 := by
  have hgua := (hok.and (along_of_forall (fun l hl _ => hform l hl) _)).and (htimely.and hfits)
  have hend := run_invariant (fun s l h hg => accounts_step rfl h hg.1.1 hg.1.2 hg.2.1 hg.2.2)
    (accounts_start (r := r) hpre he hfresh hadmitted) hgua
  rw [hrun] at hend
  -- nothing is pending at the end, so the row's usage is the sum of the billed ones
  have hpending : s.pending = [] := by simp [Session.pending,hdone,hlogged,pending]
  have hsum := hend.sum
  have hpla := hend.sane
  have hrow := hend.agrees
  have huser := hend.user
  have hsmall := hend.small
  simp only [hpending,hlogged,map_nil,sum_nil,add_zero,append_nil,Teardown.Agrees,held,zero_add,hb,
    map_some] at hsum hpla hrow huser
  refine ⟨_,huser,?_⟩
  have hcharges : |(((s.billed.map (wssQuota r (relayInfo r q))).sum : ℤ) : ℚ)
      -(s.billed.map (amount r (relayInfo r q))).sum| ≤ s.billed.length := charges_near rfl hpla (hsum ▸ hsmall)
  have hlog := rowQuota_near hplain htoken hend.saneSum hsmall
  rw [← hrow,hsum] at hlog
  have hbound : |((s.billed.map (wssQuota r (relayInfo r q))).sum-row : ℚ)| ≤ s.billed.length+1 := by
    rw [abs_le] at hcharges hlog ⊢
    constructor <;> linarith
  have hcast : |(s.billed.map (wssQuota r (relayInfo r q))).sum-row| ≤ (s.billed.length+1 : ℤ) := by exact_mod_cast hbound
  have hdiff : b-(b-(s.billed.map (wssQuota r (relayInfo r q))).sum)-row =
      (s.billed.map (wssQuota r (relayInfo r q))).sum-row := by ring
  rw [hdiff]
  exact hcast

instance (r : Ratios) (info : WssInfo) (s : Session) : ∀ l, Decidable (Succeeds r info s l)
  | .charge env => inferInstanceAs (Decidable (∀ u ∈ s.charging, ChargeSucceeds r info env u))
  | .drainCharge env => inferInstanceAs (Decidable (∀ u ∈ s.teardown.pending, ChargeSucceeds r info env u))
  | .post env => inferInstanceAs (Decidable (WritesLand env))
  | .clientEvent _ _ | .targetEvent _ _ | .responseDone _ _ _ | .readerEnds | .drain | .snapshot => .isTrue trivial

instance (s : Session) : ∀ l, Decidable (Timely s l)
  | .responseDone _ _ _ => inferInstanceAs (Decidable (s.teardown.isOpen = true))
  | .charge _ | .drainCharge _ | .post _ | .clientEvent _ _ | .targetEvent _ _ | .readerEnds | .drain | .snapshot =>
    inferInstanceAs (Decidable True)

def flatRatios (price : Option ℚ≥0) : Ratios where
  modelPrice _ := price
  modelRatio _ := ((2 : ℕ),true)
  completionRatio _ := 1
  audioRatio _ := 1
  audioCompletionRatio _ := 1
  contextTiers _ := []
  groupRatio _ := 1
  groupGroupRatio _ _ := none
  quotaPerUnit := (500000 : ℕ)

def realtime : Request where
  originModelName := "gpt-realtime"
  upstreamModelName := "gpt-realtime"
  usingGroup := "default"
  userGroup := "default"

def textUsage (n : Int64) : RealtimeUsage := { totalTokens := n, inputTokens := n, inputTokenDetails := { textTokens := n } }

def solvent : ChargeEnv := { userQuota := some 900, token := some (false,50) }

/-- One response, then the teardown; a second response comes after the copy of the sum if `late`. -/
def oneResponse (late : List Label) : List Label :=
  [.clientEvent 3 0,.responseDone (some (textUsage 10)) 0 0,.drain,.charge solvent,.drainCharge solvent,.snapshot]++late++
    [.post {}]

def admitted : World := (admission false enforcing 50 (pooled 7)).1

def session (price : Option ℚ≥0) (late : List Label) : Session :=
  run (step (flatRatios price) (relayInfo (flatRatios price) realtime)) { world := admitted } (oneResponse late)

lemma plain_realtime (price : Option ℚ≥0) : Plain (flatRatios price) realtime := ⟨rfl,rfl,rfl,rfl,rfl⟩

theorem session_charged_as_logged_once : ∃ b', (session none []).world.ledger.balances.user 1 = some b' ∧
    |1000-b'-20| ≤ ((session none []).billed.length+1 : ℤ) := by
  have hadmitted : admission false enforcing 50 (pooled 7) = (admitted,none) := by
    refine Prod.ext rfl ?_
    decide +kernel
  have hform : ∀ l ∈ oneResponse [], WellFormed l := by decide +kernel
  have hok : Along (step (flatRatios none) (relayInfo (flatRatios none) realtime))
      (Succeeds (flatRatios none) (relayInfo (flatRatios none) realtime)) { world := admitted } (oneResponse []) := by
    decide +kernel
  have htimely : Along (step (flatRatios none) (relayInfo (flatRatios none) realtime)) Timely { world := admitted }
      (oneResponse []) := by decide +kernel
  have hfits : Along (step (flatRatios none) (relayInfo (flatRatios none) realtime))
      (Fits (flatRatios none) (relayInfo (flatRatios none) realtime)) { world := admitted } (oneResponse []) := by
    decide +kernel
  have hdone : (session none []).charging = none := by decide +kernel
  have hlogged : (session none []).teardown = .logged 20 := by decide +kernel
  have hbefore : (pooled 7).ledger.balances.user (pooled 7).info.userId = some 1000 := by decide +kernel
  exact session_charged_as_logged (plain_realtime none) ⟨rfl,.inl rfl⟩ ⟨rfl,rfl⟩ (by decide) rfl hadmitted hform hok htimely
    hfits rfl hdone hlogged hbefore

theorem session_charged_beyond_row :
    (Along (step (flatRatios none) (relayInfo (flatRatios none) realtime))
        (Succeeds (flatRatios none) (relayInfo (flatRatios none) realtime)) { world := admitted }
        (oneResponse [.responseDone (some (textUsage 15)) 0 0,.charge solvent]) ∧
      (session none [.responseDone (some (textUsage 15)) 0 0,.charge solvent]).charging = none ∧
      (session none [.responseDone (some (textUsage 15)) 0 0,.charge solvent]).teardown = .logged 20 ∧
      (session none [.responseDone (some (textUsage 15)) 0 0,.charge solvent]).billed.length = 2 ∧
      (session none [.responseDone (some (textUsage 15)) 0 0,.charge solvent]).world.ledger.balances.user 1 = some 950) ∧
    (Along (step (flatRatios (some 1)) (relayInfo (flatRatios (some 1)) realtime))
        (Succeeds (flatRatios (some 1)) (relayInfo (flatRatios (some 1)) realtime)) { world := admitted } (oneResponse []) ∧
      (session (some 1) []).charging = none ∧ (session (some 1) []).teardown = .logged 0 ∧
      (session (some 1) []).billed.length = 1 ∧
      (session (some 1) []).world.ledger.balances.user 1 = some 980) := by
  decide +kernel

end LurusHub.RealtimeSession
