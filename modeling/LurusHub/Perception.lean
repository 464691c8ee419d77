import LurusHub.TextSettlement

/-! The cost shown to the caller. `EstimateQuotaFromUsage` prices a call before it is settled and
mirrors the settlement by hand. It keeps the price it resettled, so the settlement runs on that. -/
namespace LurusHub.Perception
open Decimal Pricing TextSettlement

section estimate
variable (s : Settings) (info : RelayInfo) (p : PriceData) (u : Usage)

def flatTokens : ℚ :=
  let d := u.promptTokensDetails
  let included := u.promptTokensIncludeCached
  let baseTokens := deducted included (ofInt64 u.promptTokens) d.cachedTokens
  let baseTokens := deducted included baseTokens d.cachedCreationTokens
  let baseTokens := deducted true baseTokens d.imageTokens
  let promptQuota := baseTokens+weighted d.cachedTokens p.cacheRatio
    +weighted d.imageTokens p.imageRatio
    +weighted d.cachedCreationTokens (p.cacheCreationRatioForWire included)
  promptQuota+ofInt64 u.completionTokens*p.completionRatio

def flatAmount : ℚ := flatTokens p u*(p.modelRatio*p.groupRatio)

def repriced : RelayInfo := { info with priceData := resettled s info u }

def estimateQuotaFromUsage (usage : Option Usage) : RelayInfo × Int64 :=
  match usage with
  | none => (info,0)
  | some u =>
    let p := resettled s info u
    let quota :=
      if p.usePrice then
        let result := intPart (perCallAmount s p)
        if result ≤ 0 then 1 else result
      else intPart (liftNonpositive (p.modelRatio*p.groupRatio ≠ 0) (flatAmount p u))
    (repriced s info u,quota)

/-- What the settlement prices beyond the estimate: the two buckets of cache writes, and the total
of a rerank call. -/
def unseenTokens : ℚ :=
  let d := u.promptTokensDetails
  let ratio := p.cacheCreationRatioForWire u.promptTokensIncludeCached
  ofInt64 (promptTokensOf info u)-ofInt64 u.promptTokens
    +ofInt64 u.claudeCacheCreation5mTokens*p.cacheCreation5mRatio
    +ofInt64 u.claudeCacheCreation1hTokens*p.cacheCreation1hRatio
    +(ofInt64 (remainingCacheCreationTokens u d.cachedCreationTokens)-ofInt64 d.cachedCreationTokens)*ratio

/-- Every token of the record once, at its ratio, all cache writes at the ratio of the wire. -/
def listedTokens : ℚ :=
  let d := u.promptTokensDetails
  ofInt64 u.promptTokens-(if u.promptTokensIncludeCached
    then ofInt64 d.cachedTokens+ofInt64 d.cachedCreationTokens else 0)
    -ofInt64 d.imageTokens+ofInt64 d.cachedTokens*p.cacheRatio+ofInt64 d.imageTokens*p.imageRatio
    +ofInt64 d.cachedCreationTokens*p.cacheCreationRatioForWire u.promptTokensIncludeCached
    +ofInt64 u.completionTokens*p.completionRatio

end estimate

structure Untooled (s : Settings) (ctx : CallContext) (info : RelayInfo) (u : Usage) : Prop where
  audio : u.promptTokensDetails.audioTokens = 0
  tools : otherToolFees ctx info = false
  searches : ctx.claudeWebSearchRequests ≤ 0
  ratios : info.priceData.otherRatios = []
  units : searchUnitPriced s info = none

/-- An amount that is not positive is billed as one unit. -/
def billed (amount : ℚ) : ℚ := liftNonpositive true amount

/-- A call priced as a whole must have a price, tokens, and a price that stays positive in a word. A
free model always agrees. An empty answer must be free or worth less than half a unit; any other
must have a priced group, no tokens the estimate does not see, and be worth half a unit. -/
def ShownIsCharged (s : Settings) (info : RelayInfo) (u : Usage) : Prop :=
  let p := resettled s info u
  let total := promptTokensOf info u+u.completionTokens
  let worth : ℚ := listedTokens p u*(p.modelRatio*p.groupRatio)
  if p.usePrice then p.modelPrice ≠ 0 ∧ total ≠ 0 ∧ NonnegWord (p.modelPrice*s.quotaPerUnit*p.groupRatio : ℚ)
  else p.modelRatio = 0 ∨
    if total = 0 then p.groupRatio = 0 ∨ Vanishes worth
    else p.groupRatio ≠ 0 ∧ unseenTokens info p u = 0 ∧ ¬Vanishes worth

lemma flatTokens_eq (p : PriceData) (u : Usage) : flatTokens p u = listedTokens p u := by
  simp only [flatTokens,listedTokens,deducted_eq,weighted_eq]
  split
  · simp
    ring
  · simp

lemma pricedTokens_eq {u : Usage} (haud : u.promptTokensDetails.audioTokens = 0) :
    pricedTokens info p (promptTokensOf info u) u = flatTokens p u+unseenTokens info p u := by
  simp only [pricedTokens,flatTokens,unseenTokens,deducted_eq,weighted_eq,audioPriced_zero haud]
  simp only [Bool.false_eq_true,if_false]
  ring

lemma resettled_repriced : resettled s (repriced s info u) u = resettled s info u :=
  resettleContextTier_resettle _ _ _ _

lemma claudeWebSearchFee_none (h : ctx.claudeWebSearchRequests ≤ 0) : claudeWebSearchFee s ctx p = 0 := by
  rw [claudeWebSearchFee,if_neg (Int64.not_lt.mpr h)]

lemma postConsumeQuota_repriced (hcall : Untooled s ctx info u) :
    postConsumeQuota s ctx (repriced s info u) (some u) =
      let p := resettled s info u
      settledQuota (promptTokensOf info u+u.completionTokens==0) p.chargeable
        (baseAmount s info p (promptTokensOf info u) u) := by
  have hratios : (repriced s info u).priceData.otherRatios = [] :=
    (resettleContextTier_otherRatios _ _ _).trans hcall.ratios
  have hfees (p : PriceData) : toolFees s ctx (repriced s info u) p u = 0 :=
    (toolFees_plain hcall.tools hcall.audio).trans (claudeWebSearchFee_none hcall.searches)
  simp only [postConsumeQuota_tokens hratios hcall.units,resettled_repriced,hfees,add_zero]
  rfl

theorem perCall_shown_iff (huse : p.usePrice = true) (total : Int64) :
    (if intPart (perCallAmount s p) ≤ 0 then 1 else intPart (perCallAmount s p)) =
        settledQuota (total==0) p.chargeable (perCallAmount s p) ↔
      p.modelPrice ≠ 0 ∧ total ≠ 0 ∧ NonnegWord (perCallAmount s p) := by
  have hfree : p.modelPrice = 0 → intPart (perCallAmount s p) = 0 := by
    intro h
    simp [perCallAmount,h]
  rw [← intPart_nonneg_iff (perCallAmount_nonneg s p)]
  simp only [settledQuota,PriceData.chargeable,chargeableInputNonZero,huse]
  by_cases hempty : total = 0
  · -- nothing is settled and at least one is shown
    simp [hempty]
    grind
  · by_cases hprice : p.modelPrice = 0
    · simp [hempty,hfree hprice]
    · simp [hempty]
      grind

theorem free_shown_iff {p : PriceData} (huse : p.usePrice = false) (hfree : p.modelRatio = 0 ∨ p.groupRatio = 0)
    (total : Int64) (seen whole : ℚ) :
    intPart (liftNonpositive (p.modelRatio*p.groupRatio ≠ 0) (seen*(p.modelRatio*p.groupRatio))) =
        settledQuota (total==0) p.chargeable (liftNonpositive p.chargeable (whole*(p.modelRatio*p.groupRatio))) ↔
      p.modelRatio = 0 ∨ total = 0 := by
  have hratio : p.modelRatio*p.groupRatio = 0 := mul_eq_zero.mpr hfree
  have hratio' : (p.modelRatio*p.groupRatio : ℚ) = 0 := by exact_mod_cast hratio
  have hcharge : p.chargeable = decide (p.modelRatio ≠ 0) := by
    simp [PriceData.chargeable,chargeableInputNonZero,huse]
  rw [hcharge,hratio',mul_zero,mul_zero,hratio]
  by_cases hmodel : p.modelRatio = 0
  · simp [hmodel,liftNonpositive,settledQuota]
  · by_cases hempty : total = 0
    · simp [hempty,liftNonpositive,settledQuota]
    · simp [hmodel,liftNonpositive,settledQuota]

lemma intPart_billed (amount : ℚ) : intPart (billed amount) = 0 ↔ Vanishes amount := by
  unfold billed liftNonpositive
  split
  · next h => simp [vanishes_iff,not_lt.mpr h.2]
  · next h => exact intPart_eq_zero_iff (not_le.mp fun hle => h ⟨rfl,hle⟩)

theorem priced_shown_iff {p : PriceData} (huse : p.usePrice = false) (hmodel : p.modelRatio ≠ 0) (hgro : p.groupRatio ≠ 0)
    (total : Int64) (worth : ℚ) :
    intPart (liftNonpositive (p.modelRatio*p.groupRatio ≠ 0) worth) =
        settledQuota (total==0) p.chargeable (liftNonpositive p.chargeable worth) ↔
      if total = 0 then Vanishes worth else ¬Vanishes worth := by
  have hcharge : p.chargeable = true := by
    simp [PriceData.chargeable,chargeableInputNonZero,huse,hmodel]
  rw [hcharge,decide_eq_true (mul_ne_zero hmodel hgro)]
  change intPart (billed worth) = settledQuota (total==0) true (billed worth) ↔ _
  rw [← intPart_billed]
  by_cases hempty : total = 0
  · simp [hempty,settledQuota]
  · by_cases hzero : intPart (billed worth) = 0 <;> simp [hempty,settledQuota,hzero]

/-- The shown quota is the settled one; where the estimate sees all tokens, only there. -/
theorem shown_is_charged (s : Settings) (ctx : CallContext) (info : RelayInfo) (u : Usage)
    (hcall : Untooled s ctx info u) :
    let shown := estimateQuotaFromUsage s info (some u)
    (ShownIsCharged s info u → shown.2 = postConsumeQuota s ctx shown.1 (some u)) ∧
    (unseenTokens info (resettled s info u) u = 0 → shown.2 = postConsumeQuota s ctx shown.1 (some u) →
      ShownIsCharged s info u) := by
  intro shown
  have hsettled : postConsumeQuota s ctx shown.1 (some u) = _ := postConsumeQuota_repriced hcall
  rw [hsettled]
  simp only [shown,estimateQuotaFromUsage,ShownIsCharged,baseAmount,pricedTokens_eq hcall.audio,
    flatAmount,flatTokens_eq]
  generalize resettled s info u = p
  cases huse : p.usePrice with
  | true =>
    have hiff := perCall_shown_iff (s:=s) huse (promptTokensOf info u+u.completionTokens)
    rw [if_pos rfl,if_pos rfl,if_pos rfl]
    exact ⟨hiff.mpr,fun _ => hiff.mp⟩
  | false =>
    simp only [Bool.false_eq_true,if_false]
    by_cases hmodel : p.modelRatio = 0
    · have hiff := free_shown_iff huse (.inl hmodel) (promptTokensOf info u+u.completionTokens)
      exact ⟨fun _ => (hiff _ _).mpr (.inl hmodel),fun _ _ => .inl hmodel⟩
    · rw [or_iff_right hmodel]
      by_cases hgro : p.groupRatio = 0
      · have hiff := free_shown_iff huse (.inr hgro) (promptTokensOf info u+u.completionTokens)
        rw [hiff,or_iff_right hmodel]
        by_cases hempty : promptTokensOf info u+u.completionTokens = 0 <;> simp [hempty,hgro]
      · have hiff := priced_shown_iff huse hmodel hgro (promptTokensOf info u+u.completionTokens)
          (listedTokens p u*(p.modelRatio*p.groupRatio))
        by_cases hempty : promptTokensOf info u+u.completionTokens = 0
        · have hnothing (amount : ℚ) : settledQuota ((0 : Int64)==0) p.chargeable amount = 0 := by simp [settledQuota]
          rw [hempty,hnothing,if_pos rfl] at hiff
          rw [hempty,hnothing,if_pos rfl]
          exact ⟨fun h => hiff.mpr (h.resolve_left hgro),fun _ h => .inr (hiff.mp h)⟩
        · rw [if_neg hempty] at hiff ⊢
          constructor
          · rintro ⟨_,hunseen,hworth⟩
            rw [hunseen,add_zero]
            exact hiff.mpr hworth
          · intro hunseen
            rw [hunseen,add_zero]
            exact fun h => ⟨hgro,rfl,hiff.mp h⟩

theorem shown_is_charged_cached :
    let u : Usage :=
      { promptTokens := 900, completionTokens := 40, promptTokensIncludeCached := true,
        promptTokensDetails := { cachedTokens := 500, cachedCreationTokens := 300 } }
    let shown := estimateQuotaFromUsage {} claudeModel (some u)
    shown.2 = postConsumeQuota {} {} shown.1 (some u) ∧ shown.2 = 1088 := by
  intro u
  have hcall : Untooled {} {} claudeModel u := ⟨rfl,by decide,by decide,rfl,rfl⟩
  have hcond : ShownIsCharged {} claudeModel u := by
    unfold ShownIsCharged
    decide +kernel
  exact ⟨(shown_is_charged {} {} claudeModel u hcall).1 hcond,by decide +kernel⟩

def claudeModelAt (modelRatio groupRatio : ℚ≥0) : RelayInfo :=
  { claudeModel with priceData := { claudeModel.priceData with modelRatio, groupRatio } }

def perCallModel : RelayInfo where
  originModelName := "mj-imagine"
  priceData := { usePrice := true, modelPrice := .divNat 1 10 }

def shownAndCharged (info : RelayInfo) (u : Usage) : Int64 × Int64 :=
  let shown := estimateQuotaFromUsage {} info (some u)
  (shown.2,postConsumeQuota {} {} shown.1 (some u))

theorem shown_differs :
    let written : Usage :=
      { promptTokens := 1010, completionTokens := 10, promptTokensIncludeCached := true,
        promptTokensDetails := { cachedCreationTokens := 1000 }, claudeCacheCreation1hTokens := 1000 }
    let small : Usage := { promptTokens := 2, completionTokens := 1, promptTokensIncludeCached := true }
    (Untooled {} {} claudeModel written ∧ shownAndCharged claudeModel written = (1965,3090)) ∧
    (Untooled {} {} (claudeModelAt (1/20) 1) small ∧
      shownAndCharged (claudeModelAt (1/20) 1) small = (0,1)) ∧
    (Untooled {} {} (claudeModelAt 1 0) small ∧ shownAndCharged (claudeModelAt 1 0) small = (0,1)) ∧
    (Untooled {} {} perCallModel {} ∧ shownAndCharged perCallModel {} = (50000,0)) := by
  refine ⟨⟨⟨rfl,?_,?_,rfl,rfl⟩,?_⟩,⟨⟨rfl,?_,?_,rfl,rfl⟩,?_⟩,⟨⟨rfl,?_,?_,rfl,rfl⟩,?_⟩,⟨⟨rfl,?_,?_,rfl,rfl⟩,?_⟩⟩
  all_goals decide +kernel

end LurusHub.Perception
