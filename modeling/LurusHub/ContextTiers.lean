import LurusHub.TextSettlement
import Mathlib.Data.List.Nodup

/-! Context-length tiers from the quote to the settlement. `ModelPriceHelper` quotes at an estimated
prompt and may put a tier over the flat ratios; settlement looks up the tier of the real length,
perhaps more than once. The quote keeps the flat ratios, so only the last look-up counts. -/
namespace LurusHub.ContextTiers
open Pricing TextSettlement List

/-! The tier list of a model. -/

def maxContextTiersPerModel : ℕ := 8

/-- The checks on the tier at place `i`. Ratios are never negative here, so the bound is missed by
zero alone. -/
def checkTier (i : ℕ) (prevThreshold : Int64) (t : ContextTier) : Option String :=
  let tier := "tier[" ++ toString i ++ "] "
  if t.thresholdTokens < 0 then some (tier ++ "threshold_tokens must be >= 0")
  else if t.thresholdTokens ≤ prevThreshold then some (tier ++ "threshold_tokens must be strictly ascending")
  else if t.modelRatio = some 0 then some (tier ++ "model_ratio must be > 0")
  else if t.completionRatio = some 0 then some (tier ++ "completion_ratio must be > 0")
  else if t.cacheRatio = some 0 then some (tier ++ "cache_ratio must be > 0")
  else none

def checkTiers (i : ℕ) (prevThreshold : Int64) : List ContextTier → Except String Unit
  | [] => .ok ()
  | t::ts =>
    match checkTier i prevThreshold t with
    | some message => .error message
    | none => checkTiers (i+1) t.thresholdTokens ts

def validateContextTierList (list : List ContextTier) : Except String Unit :=
  if list.length > maxContextTiersPerModel then
    .error ("at most " ++ toString maxContextTiersPerModel ++ " context tiers allowed, got " ++ toString list.length)
  else checkTiers 0 (-1) list

lemma checkTier_ascending {prev : Int64} (h : checkTier i prev t = none) : prev < t.thresholdTokens := by
  unfold checkTier at h
  split_ifs at h with hneg hasc
  exact Int64.not_le.mp hasc

lemma checkTiers_ascending {prev : Int64} (h : checkTiers i prev list = .ok ()) :
    (∀ t ∈ list, prev < t.thresholdTokens) ∧ list.Pairwise fun a b => a.thresholdTokens < b.thresholdTokens := by
  induction list generalizing i prev with
  | nil => simp
  | cons t ts ih =>
    simp only [checkTiers] at h
    split at h
    · cases h
    · next hche =>
      obtain ⟨hrest,hpai⟩ := ih h
      have hhead := checkTier_ascending hche
      refine ⟨forall_mem_cons.mpr ⟨hhead,fun t' ht' => ?_⟩,pairwise_cons.mpr ⟨hrest,hpai⟩⟩
      exact Int64.lt_trans hhead (hrest t' ht')

lemma validateContextTierList_ascending (h : validateContextTierList list = .ok ()) :
    list.Pairwise fun a b => a.thresholdTokens < b.thresholdTokens := by
  unfold validateContextTierList at h
  split_ifs at h
  exact (checkTiers_ascending h).2

/-- The tier has the greatest threshold at or below the context length. -/
def Governs (tiers : List ContextTier) (n : Int64) (t : ContextTier) : Prop :=
  t ∈ tiers ∧ t.thresholdTokens ≤ n ∧ ∀ t' ∈ tiers, t'.thresholdTokens ≤ n → t'.thresholdTokens ≤ t.thresholdTokens

def better (n : Int64) (best : Option ContextTier) (t : ContextTier) : Option ContextTier :=
  if n < t.thresholdTokens then best
  else match best with
    | none => some t
    | some b => if b.thresholdTokens < t.thresholdTokens then some t else some b

def Found (n : Int64) (seen : List ContextTier) : Option ContextTier → Prop
  | none => ∀ t ∈ seen, n < t.thresholdTokens
  | some t => Governs seen n t

lemma found_better (h : Found n seen best) : Found n (seen++[t]) (better n best t) := by
  unfold better
  split
  · next habove =>
    cases best with
    | none => exact forall_mem_append.mpr ⟨h,forall_mem_singleton.mpr habove⟩
    | some b =>
      obtain ⟨hmem,hle,hmax⟩ := h
      refine ⟨mem_append_left _ hmem,hle,forall_mem_append.mpr ⟨hmax,forall_mem_singleton.mpr fun hle' => ?_⟩⟩
      exact absurd hle' (Int64.not_le.mpr habove)
  · next hrea =>
    have hle := Int64.not_lt.mp hrea
    cases best with
    | none =>
      refine ⟨by simp,hle,forall_mem_append.mpr ⟨fun t' ht' hle' => ?_,forall_mem_singleton.mpr fun _ => Int64.le_refl _⟩⟩
      exact absurd hle' (Int64.not_le.mpr (h t' ht'))
    | some b =>
      obtain ⟨hmem,hleb,hmax⟩ := h
      by_cases hlt : b.thresholdTokens < t.thresholdTokens
      · simp only [hlt]
        refine ⟨by simp,hle,forall_mem_append.mpr ⟨fun t' ht' hle' => ?_,forall_mem_singleton.mpr fun _ => Int64.le_refl _⟩⟩
        exact Int64.le_trans (hmax t' ht' hle') (Int64.le_of_lt hlt)
      · simp only [hlt]
        refine ⟨mem_append_left _ hmem,hleb,forall_mem_append.mpr ⟨hmax,forall_mem_singleton.mpr fun _ => ?_⟩⟩
        exact Int64.not_lt.mp hlt

lemma found_foldl (h : Found n seen best) : Found n (seen++tiers) (tiers.foldl (better n) best) := by
  induction tiers generalizing seen best with
  | nil => simpa using h
  | cons t ts ih => simpa using ih (found_better h)

theorem getContextLengthTier_found (tiers : List ContextTier) (n : Int64) :
    Found n tiers (getContextLengthTier tiers n) := by
  have hstart : Found n [] none := by simp [Found]
  exact found_foldl hstart

lemma governs_unique (h : tiers.Pairwise fun a b => a.thresholdTokens < b.thresholdTokens)
    (ht : Governs tiers n t) (ht' : Governs tiers n t') : t = t' := by
  have hdistinct : (tiers.map (·.thresholdTokens)).Nodup := by
    refine pairwise_map.mpr (h.imp ?_)
    intro a b hlt heq
    rw [heq] at hlt
    exact Int64.lt_irrefl hlt
  have hle := ht'.2.2 t ht.1 ht.2.1
  have hge := ht.2.2 t' ht'.1 ht'.2.1
  exact inj_on_of_nodup_map hdistinct ht.1 ht'.1 (Int64.le_antisymm hle hge)

/-! The quote. -/

structure Tables where
  modelPrice : String → Option ℚ≥0
  modelRatio : String → ℚ≥0 × Bool × String
  (completionRatio cacheRatio : String → ℚ≥0)
  createCacheRatio : String → ℚ≥0 × Bool
  (imageRatio audioRatio audioCompletionRatio : String → ℚ≥0)
  contextTiers : String → List ContextTier
  searchUnitPrice : String → Option ℚ≥0
  quotaPerUnit : ℚ≥0 := (500000 : ℕ)
  preConsumedQuota : Int64 := 500
  enableFreeModelPreConsume : Bool := true

structure Call where
  originModelName : String
  groupRatio : ℚ≥0 := 1
  rerank : Bool := false
  documents : ℕ := 0
  openRouterFree : Bool := false
  acceptUnsetRatioModel : Bool := false

structure TokenCountMeta where
  maxTokens : Int64 := 0
  imagePriceRatio : ℚ≥0 := 0

structure Quote where
  priceData : PriceData
  audioRatio : ℚ≥0 := 0
  audioCompletionRatio : ℚ≥0 := 0
  quotaToPreConsume : ℤ
  freeModel : Bool

def claudeCacheCreation1hMultiplier : ℚ≥0 := .divNat 8 5

def rerankUnitPrice (t : Tables) (c : Call) : Option ℚ≥0 :=
  if c.rerank then t.searchUnitPrice c.originModelName else none

/-- The price of the call as a whole, if it has one; search units come first. -/
def callPrice (t : Tables) (c : Call) : Option ℚ≥0 :=
  match rerankUnitPrice t c with
  | some price => some (price*searchUnits c.documents)
  | none => t.modelPrice c.originModelName

/-- A free call is not pre-consumed, unless the operator wants it to be. -/
def skipsPreConsume (t : Tables) (p : PriceData) : Bool :=
  if t.enableFreeModelPreConsume then false
  else if p.groupRatio = 0 then true
  else if p.usePrice then p.modelPrice = 0
  else p.modelRatio = 0

def Quote.withFreeModel (t : Tables) (q : Quote) : Quote :=
  if skipsPreConsume t q.priceData then { q with quotaToPreConsume := 0, freeModel := true } else q

/-- The model's ratio; one that is not set is an error, except for the free variants of OpenRouter
and for users who accept it. -/
def quotedModelRatio (t : Tables) (c : Call) : Except String ℚ≥0 :=
  let (ratio,success,matchName) := t.modelRatio c.originModelName
  if success then .ok ratio
  else if c.openRouterFree then .ok 0
  else if c.acceptUnsetRatioModel then .ok ratio
  else .error ("model " ++ matchName ++ " ratio or price not set, please set it or enable self-use mode")

def flatPrice (t : Tables) (c : Call) (modelRatio : ℚ≥0) : PriceData :=
  let model := c.originModelName
  let (cacheCreationRatio,listed) := t.createCacheRatio model
  { modelRatio
    completionRatio := t.completionRatio model
    cacheRatio := t.cacheRatio model
    cacheCreationRatio
    cacheCreation5mRatio := cacheCreationRatio
    cacheCreation1hRatio := cacheCreationRatio*claudeCacheCreation1hMultiplier
    cacheCreationRatioDefaulted := !listed
    imageRatio := t.imageRatio model
    groupRatio := c.groupRatio
    baseModelRatio := modelRatio
    baseCompletionRatio := t.completionRatio model
    baseCacheRatio := t.cacheRatio model
    baseRatiosSet := true }

def modelPriceHelper (t : Tables) (c : Call) (promptTokens : Int64) (m : TokenCountMeta) : Except String Quote :=
  match callPrice t c with
  | some price =>
    let modelPrice := if m.imagePriceRatio ≠ 0 then price*m.imagePriceRatio else price
    .ok <| Quote.withFreeModel t {
      priceData := { usePrice := true, modelPrice, groupRatio := c.groupRatio, baseRatiosSet := true }
      quotaToPreConsume := ⌊(modelPrice*t.quotaPerUnit*c.groupRatio : ℚ)⌋
      freeModel := false }
  | none =>
    match quotedModelRatio t c with
    | .error e => .error e
    | .ok modelRatio =>
      let preConsumedTokens := max promptTokens t.preConsumedQuota+m.maxTokens
      let p := (flatPrice t c modelRatio).override
        (getContextLengthTier (t.contextTiers c.originModelName) promptTokens)
      let amount : ℚ := Decimal.ofInt64 preConsumedTokens*(p.modelRatio*c.groupRatio)
      .ok <| Quote.withFreeModel t {
        priceData := p
        audioRatio := t.audioRatio c.originModelName
        audioCompletionRatio := t.audioCompletionRatio c.originModelName
        quotaToPreConsume := if 0 ≤ amount then ⌊amount⌋ else ⌈amount⌉
        freeModel := false }

@[simp] lemma withFreeModel_priceData (q : Quote) : (q.withFreeModel t).priceData = q.priceData := by
  unfold Quote.withFreeModel
  split <;> rfl

theorem modelPriceHelper_ok (h : modelPriceHelper t c promptTokens m = .ok q) :
    (∃ price modelPrice, callPrice t c = some price ∧
      q.priceData = { usePrice := true, modelPrice, groupRatio := c.groupRatio, baseRatiosSet := true }) ∨
    (∃ ratio, callPrice t c = none ∧ quotedModelRatio t c = .ok ratio ∧
      q.priceData = (flatPrice t c ratio).override
        (getContextLengthTier (t.contextTiers c.originModelName) promptTokens)) := by
  unfold modelPriceHelper at h
  split at h
  · next price hprice =>
    cases h
    exact .inl ⟨price,_,hprice,withFreeModel_priceData _⟩
  · next hprice =>
    split at h
    · cases h
    · next ratio hratio =>
      cases h
      exact .inr ⟨ratio,hprice,hratio,withFreeModel_priceData _⟩

/-! The settlement. -/

structure TierFields where
  (modelRatio completionRatio cacheRatio : ℚ≥0)
  contextTierThreshold : Int64
  deriving DecidableEq

def tierFields (p : PriceData) : TierFields := ⟨p.modelRatio,p.completionRatio,p.cacheRatio,p.contextTierThreshold⟩

def baseFields (p : PriceData) : TierFields := ⟨p.baseModelRatio,p.baseCompletionRatio,p.baseCacheRatio,0⟩

def overridden (p : PriceData) (tier : ContextTier) : TierFields :=
  ⟨tier.modelRatio.getD p.baseModelRatio,tier.completionRatio.getD p.baseCompletionRatio,
    tier.cacheRatio.getD p.baseCacheRatio,tier.thresholdTokens⟩

/-- Any look-ups on the way, then the one at the actual length. -/
def settled (tiers : List ContextTier) (p : PriceData) (lookups : List Int64) (actual : Int64) : PriceData :=
  resettleContextTier tiers (lookups.foldl (resettleContextTier tiers) p) actual

lemma settled_eq : settled tiers p lookups actual = resettleContextTier tiers p actual := by
  induction lookups generalizing p with
  | nil => rfl
  | cons n ns ih =>
    have hstep : settled tiers p (n::ns) actual = settled tiers (resettleContextTier tiers p n) ns actual := rfl
    rw [hstep,ih,resettleContextTier_resettle]

@[simp] lemma override_override (p : PriceData) : (p.override a).override b = p.override b := rfl

@[simp] lemma baseFields_override : baseFields (p.override a) = baseFields p := rfl

@[simp] lemma overridden_override : overridden (p.override a) tier = overridden p tier := rfl

theorem resettle_flat (ratio : ℚ≥0) :
    resettleContextTier tiers ((flatPrice t c ratio).override (getContextLengthTier tiers estimate)) actual =
      (flatPrice t c ratio).override (getContextLengthTier tiers actual) := by
  have huse (a : Option ContextTier) : ((flatPrice t c ratio).override a).usePrice = false := rfl
  have hbase (a : Option ContextTier) : ((flatPrice t c ratio).override a).baseRatiosSet := rfl
  cases tiers with
  | nil => simp [resettleContextTier,getContextLengthTier]
  | cons tier tiers => simp [resettleContextTier,huse,hbase]

theorem resettle_perCall (huse : p.usePrice) : resettleContextTier tiers p actual = p := by
  simp [resettleContextTier,huse]

lemma override_found (hasc : tiers.Pairwise fun a b => a.thresholdTokens < b.thresholdTokens)
    (actual : Int64) :
    ((∃! tier, Governs tiers actual tier) ∨ ∀ tier ∈ tiers, actual < tier.thresholdTokens) ∧
    (∀ tier, Governs tiers actual tier →
      tierFields (p.override (getContextLengthTier tiers actual)) = overridden p tier) ∧
    ((∀ tier ∈ tiers, actual < tier.thresholdTokens) →
      tierFields (p.override (getContextLengthTier tiers actual)) = baseFields p) := by
  have hfound := getContextLengthTier_found tiers actual
  cases hget : getContextLengthTier tiers actual with
  | none =>
    rw [hget] at hfound
    refine ⟨.inr hfound,fun tier hgov => ?_,fun _ => rfl⟩
    exact absurd hgov.2.1 (Int64.not_le.mpr (hfound tier hgov.1))
  | some best =>
    rw [hget] at hfound
    refine ⟨.inl ⟨best,hfound,fun tier htier => governs_unique hasc htier hfound⟩,fun tier hgov => ?_,
      fun habove => ?_⟩
    · obtain rfl := governs_unique hasc hgov hfound
      rfl
    · exact absurd hfound.2.1 (Int64.not_le.mpr (habove best hfound.1))

/-- What is settled does not depend on the quote or on earlier look-ups. -/
theorem settled_path_independent (t : Tables)
    (hvalid : ∀ model, validateContextTierList (t.contextTiers model) = .ok ()) (c : Call)
    {p₁ p₂ : Int64} {m₁ m₂ : TokenCountMeta} {q₁ q₂ : Quote} (h₁ : modelPriceHelper t c p₁ m₁ = .ok q₁)
    (h₂ : modelPriceHelper t c p₂ m₂ = .ok q₂) (lookups₁ lookups₂ : List Int64) (actual : Int64) :
    let tiers := t.contextTiers c.originModelName
    let settled₁ := settled tiers q₁.priceData lookups₁ actual
    baseFields q₁.priceData = baseFields q₂.priceData ∧
    tierFields settled₁ = tierFields (settled tiers q₂.priceData lookups₂ actual) ∧
    resettleContextTier tiers settled₁ actual = settled₁ ∧
    (q₁.priceData.usePrice = true → tierFields settled₁ = baseFields q₁.priceData) ∧
    (q₁.priceData.usePrice = false →
      ((∃! tier, Governs tiers actual tier) ∨ ∀ tier ∈ tiers, actual < tier.thresholdTokens) ∧
      (∀ tier, Governs tiers actual tier → tierFields settled₁ = overridden q₁.priceData tier) ∧
      ((∀ tier ∈ tiers, actual < tier.thresholdTokens) → tierFields settled₁ = baseFields q₁.priceData)) := by
  intro tiers settled₁
  have hasc := validateContextTierList_ascending (hvalid c.originModelName)
  have hlast : settled₁ = resettleContextTier tiers q₁.priceData actual := settled_eq
  have hagain : resettleContextTier tiers settled₁ actual = settled₁ := by
    rw [hlast,resettleContextTier_resettle]
  rw [settled_eq]
  rcases modelPriceHelper_ok h₁ with ⟨price,_,hprice,hq₁⟩ | ⟨modelRatio,hprice,hratio,hq₁⟩
  · rcases modelPriceHelper_ok h₂ with ⟨_,_,_,hq₂⟩ | ⟨_,hnone,_,_⟩
    · have huse₁ : q₁.priceData.usePrice = true := by rw [hq₁]
      have huse₂ : q₂.priceData.usePrice = true := by rw [hq₂]
      rw [resettle_perCall huse₁] at hlast
      rw [resettle_perCall huse₂]
      refine ⟨by simp [hq₁,hq₂,baseFields],by simp [hlast,hq₁,hq₂,tierFields],hagain,?_,by simp [huse₁]⟩
      exact fun _ => by simp [hlast,hq₁,tierFields,baseFields]
    · rw [hprice] at hnone
      cases hnone
  · rcases modelPriceHelper_ok h₂ with ⟨_,_,hsome,_⟩ | ⟨modelRatio',_,hratio',hq₂⟩
    · rw [hprice] at hsome
      cases hsome
    · obtain rfl : modelRatio = modelRatio' := Except.ok.inj (hratio.symm.trans hratio')
      rw [hq₁,resettle_flat] at hlast
      rw [hq₂,resettle_flat,← hlast]
      have huse : q₁.priceData.usePrice = false := by rw [hq₁]; rfl
      obtain ⟨hone,hgov,hflat⟩ := override_found hasc actual
      rw [← hlast] at hgov hflat
      refine ⟨by simp [hq₁],rfl,hagain,by simp [huse],fun _ => ⟨hone,fun tier hgove => ?_,fun habove => ?_⟩⟩
      · rw [hgov tier hgove,hq₁,overridden_override]
      · rw [hflat habove,hq₁,baseFields_override]

/-- A model with two tiers, the second of which leaves the completion ratio alone. -/
def tiered : Tables where
  modelPrice := fun model => if model = "per-call" then some (.divNat 1 10) else none
  modelRatio := fun model => (1,true,model)
  completionRatio := fun _ => (3 : ℕ)
  cacheRatio := fun _ => .divNat 1 10
  createCacheRatio := fun _ => (.divNat 5 4,false)
  imageRatio := fun _ => 1
  audioRatio := fun _ => 1
  audioCompletionRatio := fun _ => 1
  contextTiers := fun model =>
    if model = "long" ∨ model = "per-call" then
      [{ thresholdTokens := 1000, modelRatio := some (2 : ℕ), completionRatio := some (4 : ℕ) },
       { thresholdTokens := 200000, modelRatio := some (5 : ℕ) }]
    else []
  searchUnitPrice := fun _ => none

lemma tiered_valid (model : String) : validateContextTierList (tiered.contextTiers model) = .ok () := by
  have hlist (model : String) : tiered.contextTiers model = tiered.contextTiers "long" ∨ tiered.contextTiers model = [] := by
    by_cases h : model = "long" ∨ model = "per-call" <;> simp [tiered,h]
  rcases hlist model with h | h <;> rw [h] <;> decide

def quoteOf (t : Tables) (c : Call) (promptTokens : Int64) : Quote :=
  match modelPriceHelper t c promptTokens {} with
  | .ok q => q
  | .error _ => ⟨{},0,0,0,false⟩

theorem settled_path_independent_long :
    let tiers := tiered.contextTiers "long"
    let below := (quoteOf tiered { originModelName := "long" } 500).priceData
    let above := (quoteOf tiered { originModelName := "long" } 250000).priceData
    tierFields (settled tiers below [3000,0] 150000) = tierFields (settled tiers above [] 150000) ∧
      tierFields (settled tiers below [3000,0] 150000) = ⟨(2 : ℕ),(4 : ℕ),.divNat 1 10,1000⟩ := by
  have hbelow : modelPriceHelper tiered { originModelName := "long" } 500 {} =
      .ok (quoteOf tiered { originModelName := "long" } 500) := rfl
  have habove : modelPriceHelper tiered { originModelName := "long" } 250000 {} =
      .ok (quoteOf tiered { originModelName := "long" } 250000) := rfl
  exact ⟨(settled_path_independent tiered tiered_valid { originModelName := "long" } hbelow habove [3000,0] [] 150000).2.1,
    by decide +kernel⟩

theorem settled_perCall_ignores_tiers :
    let tiers := tiered.contextTiers "per-call"
    let p := (quoteOf tiered { originModelName := "per-call" } 500).priceData
    let tier : ContextTier := { thresholdTokens := 1000, modelRatio := some (2 : ℕ), completionRatio := some (4 : ℕ) }
    validateContextTierList tiers = .ok () ∧ Governs tiers 150000 tier ∧ p.usePrice = true ∧
      tierFields (settled tiers p [] 150000) = ⟨0,0,0,0⟩ ∧ overridden p tier = ⟨(2 : ℕ),(4 : ℕ),0,1000⟩ := by
  refine ⟨by decide,⟨by decide,by decide,?_⟩,by decide +kernel,by decide +kernel,by decide +kernel⟩
  decide +kernel

end LurusHub.ContextTiers
