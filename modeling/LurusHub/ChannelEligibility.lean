import LurusHub.ChannelSelect
import LurusHub.ChannelStatus
import Mathlib.Data.List.ReduceOption

/-! Which channels a selection returns. A channel comes from the affinity pin, the strict pass or
the relaxed one; each conjoins its own predicates, and only the passes look at the used channels. -/
namespace LurusHub.ChannelSelect
open ChannelCache Transition KeyedTable Option List

/-! The predicates, one channel at a time. -/

def Cools (cooldowns : Cooldowns) (now id : ℤ) : Prop :=
  ∃ u, 0 < u ∧ now < u ∧ (cooldowns.cooldownLocal.get? (id,0) = some ((id,0),u) ∨
    cooldowns.cooldownRemote.get? (id,0) = some ((id,0),u))

lemma lt_deadline_iff (d : Deadlines) (slot : ℤ × ℤ) (now : ℤ) :
    0 < deadline d slot ∧ now < deadline d slot ↔ ∃ u, 0 < u ∧ now < u ∧ d.get? slot = some (slot,u) := by
  unfold deadline
  cases h : d.get? slot with
  | none => simp
  | some row =>
    have hslot : row = (slot,row.2) := by rw [← key_of_get? h]
    constructor
    · intro hpos
      exact ⟨row.2,hpos.1,hpos.2,by rw [← hslot]⟩
    · rintro ⟨u,hu,hlt,heq⟩
      cases heq
      exact ⟨hu,hlt⟩

lemma coolingUntil_pos {now id : ℤ} : 0 < coolingUntil cooldowns now id 0 ↔ Cools cooldowns now id := by
  have hown := lt_deadline_iff cooldowns.cooldownLocal (id,0) now
  have hshared := lt_deadline_iff cooldowns.cooldownRemote (id,0) now
  have hsplit : Cools cooldowns now id ↔
      (0 < deadline cooldowns.cooldownLocal (id,0) ∧ now < deadline cooldowns.cooldownLocal (id,0)) ∨
        0 < deadline cooldowns.cooldownRemote (id,0) ∧ now < deadline cooldowns.cooldownRemote (id,0) := by
    rw [hown,hshared,Cools,← exists_or]
    simp only [and_or_left]
  rw [hsplit]
  unfold coolingUntil
  dsimp only
  split_ifs <;> omega

instance (cooldowns : Cooldowns) (now id : ℤ) : Decidable (Cools cooldowns now id) :=
  decidable_of_iff _ coolingUntil_pos

lemma Cools.active {now id : ℤ} (h : Cools cooldowns now id) : anyCooldownActive cooldowns now := by
  obtain ⟨u,_,hlt,hown | hshared⟩ := h
  · simp only [anyCooldownActive,Bool.or_eq_true,List.any_eq_true,decide_eq_true_eq]
    exact .inl ⟨_,mem_of_get? hown,hlt⟩
  · simp only [anyCooldownActive,Bool.or_eq_true,List.any_eq_true,decide_eq_true_eq]
    exact .inr ⟨_,mem_of_get? hshared,hlt⟩

@[simp] lemma cooldownPredicate_all :
    (cooldownPredicate cooldowns now).all (· ch) ↔ ¬Cools cooldowns now ch.id := by
  unfold cooldownPredicate
  split
  · simp [← coolingUntil_pos]
  · next hnone => simpa using fun h => hnone (Cools.active h)

@[simp] lemma usedChannelPredicate_all : (usedChannelPredicate used).all (· ch) ↔ ch.id ∉ used := by
  unfold usedChannelPredicate
  split
  · next h => simp [h]
  · simp

@[simp] lemma andChannelPredicates_all :
    (andChannelPredicates preds).all (· ch) ↔ ∀ pred ∈ preds, pred.all (· ch) := by
  have hlive : (andChannelPredicates preds).all (· ch) = preds.reduceOption.all (· ch) := by
    unfold andChannelPredicates
    split
    · next h => simp [h]
    · rfl
  rw [hlive,List.all_eq_true]
  constructor
  · intro h pred hpred
    cases pred with
    | none => rfl
    | some p => exact h p (reduceOption_mem_iff.mpr hpred)
  · intro h p hp
    exact h (some p) (reduceOption_mem_iff.mp hp)

structure Eligible (req : Request) (sur : Surroundings) (ch : Channel) : Prop where
  tenant : req.tenantID = "" ∨ Serves req.tenantID ch = true
  provider : req.filterPred.all (· ch) = true
  modality : (modalityPredicate sur.modality req.modelName).all (· ch) = true
  cooldown : ¬Cools sur.cooldowns sur.now ch.id

instance (req : Request) (sur : Surroundings) (ch : Channel) : Decidable (Eligible req sur ch) :=
  decidable_of_iff ((req.tenantID = "" ∨ Serves req.tenantID ch = true) ∧ req.filterPred.all (· ch) = true ∧
    (modalityPredicate sur.modality req.modelName).all (· ch) = true ∧ ¬Cools sur.cooldowns sur.now ch.id)
    ⟨fun h => ⟨h.1,h.2.1,h.2.2.1,h.2.2.2⟩,fun h => ⟨h.1,h.2,h.3,h.4⟩⟩

def inGroup (req : Request) (sur : Surroundings) (group : String) : List Channel :=
  (sur.cache.listed group req.modelName).filterMap sur.cache.channelsIDM.get?

def FreshIn (req : Request) (sur : Surroundings) (used : List ℤ) (group : String) : Prop :=
  ∃ ch ∈ inGroup req sur group, Eligible req sur ch ∧ ch.id ∉ used

def searched (req : Request) (w : Walk) : List String :=
  if req.tokenGroup = "auto" then req.getUserAutoGroup.drop w.startGroupIndex else [req.tokenGroup]

def Fresh (req : Request) (sur : Surroundings) (used : List ℤ) (w : Walk) : Prop :=
  ∃ group ∈ searched req w, FreshIn req sur used group

instance (req : Request) (sur : Surroundings) (used : List ℤ) (w : Walk) : Decidable (Fresh req sur used w) := by
  delta Fresh FreshIn; infer_instance

/-! One group. -/

section
variable {excludeUsed : Bool}

lemma selectChannelOnce_pred : ((req.tenantID = "" ∨ Serves req.tenantID c) ∧
      (andChannelPredicates [andChannelPredicates [modalityPredicate sur.modality req.modelName,req.filterPred,
        if excludeUsed then usedChannelPredicate used else none],cooldownPredicate sur.cooldowns sur.now]).all (· c)) ↔
      Eligible req sur c ∧ (excludeUsed → c.id ∉ used) := by
  simp only [andChannelPredicates_all,forall_mem_cons,not_mem_nil,false_implies,implies_true,and_true,
    cooldownPredicate_all]
  constructor
  · rintro ⟨htenant,⟨hmoda,hpro,hused⟩,hcool⟩
    refine ⟨⟨htenant,hpro,hmoda,hcool⟩,?_⟩
    rintro rfl
    simpa using hused
  · rintro ⟨⟨htenant,hpro,hmoda,hcool⟩,hused⟩
    refine ⟨htenant,⟨hmoda,hpro,?_⟩,hcool⟩
    cases excludeUsed with
    | true => simpa using hused
    | false => rfl

lemma selectChannelOnce_some (h : selectChannelOnce req sur group retry used excludeUsed draw = .ok (some c)) :
    c ∈ inGroup req sur group ∧ Eligible req sur c ∧ (excludeUsed → c.id ∉ used) := by
  unfold selectChannelOnce at h
  dsimp only at h
  split at h
  · next ch hch =>
    cases h
    obtain ⟨id,hid,hget,htenant,hpred⟩ := selected_accepted hch
    exact ⟨mem_filterMap.mpr ⟨id,hid,hget⟩,selectChannelOnce_pred.mp ⟨htenant,hpred⟩⟩
  · split at h <;> cases h
  · cases h

lemma selectChannelOnce_found (hb : Backed sur.cache) (hroom : Roomy sur.scores (inGroup req sur group))
    (hc : c ∈ inGroup req sur group) (he : Eligible req sur c)
    (hused : excludeUsed → c.id ∉ used) :
    ∃ d, selectChannelOnce req sur group retry used excludeUsed draw = .ok (some d) := by
  obtain ⟨id,hid,hget⟩ := mem_filterMap.mp hc
  obtain ⟨htenant,hpred⟩ := selectChannelOnce_pred.mpr ⟨he,hused⟩
  obtain ⟨d,hd⟩ := exists_selected hb hid hget htenant hpred hroom (if excludeUsed && used ≠ [] then 0 else retry) draw
  refine ⟨d,?_⟩
  unfold selectChannelOnce
  dsimp only
  rw [hd]

lemma not_freshIn (hb : Backed sur.cache) (hroom : Roomy sur.scores (inGroup req sur group))
    (h : ∀ d, selectChannelOnce req sur group retry used true draw ≠ .ok (some d)) : ¬FreshIn req sur used group := by
  rintro ⟨ch,hch,he,hnew⟩
  obtain ⟨d,hd⟩ := selectChannelOnce_found hb hroom hch he (fun _ => hnew)
  exact h d hd

lemma selectChannelWhere_some (hb : Backed sur.cache) {draw : Bool → ℕ}
    (h : selectChannelWhere req sur group retry used draw = .ok (some c)) :
    c ∈ inGroup req sur group ∧ Eligible req sur c ∧
      (Roomy sur.scores (inGroup req sur group) → c.id ∈ used → ¬FreshIn req sur used group) := by
  unfold selectChannelWhere at h
  split at h
  · next e hstr =>
    have hnone : Roomy sur.scores (inGroup req sur group) → ¬FreshIn req sur used group := fun hroom =>
      not_freshIn hb hroom fun d hd => absurd (hstr.symm.trans hd) (by simp)
    split at h
    · split at h
      · cases h
      · obtain ⟨hin,he,_⟩ := selectChannelOnce_some h
        exact ⟨hin,he,fun hroom _ => hnone hroom⟩
    · cases h
  · obtain ⟨hin,he,hnew⟩ := selectChannelOnce_some h
    exact ⟨hin,he,fun _ hused => absurd hused (hnew rfl)⟩

end

/-! The walk. -/

lemma runGroups_select (i : ℕ) (acc : Walk × Misses)
    (h : (runGroups select crossGroupRetry retryTimes start groups i acc).2 = some f) :
    ∃ retry, select f.index f.group retry = .ok (some f.channel) := by
  induction groups generalizing i acc with
  | nil => cases h
  | cons group groups ih =>
    rw [runGroups] at h
    split at h
    · next hsel =>
      cases h
      exact ⟨_,hsel⟩
    · exact ih _ _ h
    · exact ih _ _ h

lemma runGroups_none (i : ℕ) (acc : Walk × Misses)
    (h : (runGroups select crossGroupRetry retryTimes start groups i acc).2 = none) :
    ∀ group ∈ groups, ∃ i retry, ∀ c, select i group retry ≠ .ok (some c) := by
  induction groups generalizing i acc with
  | nil => simp
  | cons group groups ih =>
    rw [runGroups] at h
    rw [forall_mem_cons]
    split at h
    · cases h
    · next hsel => exact ⟨⟨i,_,fun c hc => absurd (hsel.symm.trans hc) (by simp)⟩,ih _ _ h⟩
    · next hsel => exact ⟨⟨i,_,fun c hc => absurd (hsel.symm.trans hc) (by simp)⟩,ih _ _ h⟩

lemma strictPass_some (h : (groupPass req sur used true w).2 = some f) :
    f.channel ∈ inGroup req sur f.group ∧ Eligible req sur f.channel ∧ f.channel.id ∉ used := by
  obtain ⟨retry,hsel⟩ := runGroups_select _ _ h
  obtain ⟨hin,he,hnew⟩ := selectChannelOnce_some hsel
  exact ⟨hin,he,hnew rfl⟩

lemma strictPass_none (hb : Backed sur.cache)
    (hroom : ∀ group ∈ req.getUserAutoGroup.drop w.startGroupIndex, Roomy sur.scores (inGroup req sur group))
    (h : (groupPass req sur used true w).2 = none) :
    ∀ group ∈ req.getUserAutoGroup.drop w.startGroupIndex, ¬FreshIn req sur used group := by
  intro group hgro
  obtain ⟨_,_,hmiss⟩ := runGroups_none _ _ h group hgro
  exact not_freshIn hb (hroom group hgro) hmiss

lemma relaxedPass_some (hb : Backed sur.cache) (h : (groupPass req sur used false w).2 = some f) :
    f.channel ∈ inGroup req sur f.group ∧ Eligible req sur f.channel := by
  obtain ⟨retry,hsel⟩ := runGroups_select _ _ h
  exact (selectChannelWhere_some hb hsel).imp_right And.left

theorem walkAutoGroups_some (hb : Backed sur.cache) (h : (walkAutoGroups req sur used w).2 = some f) :
    f.channel ∈ inGroup req sur f.group ∧ Eligible req sur f.channel ∧
      ((∀ group ∈ req.getUserAutoGroup.drop w.startGroupIndex, Roomy sur.scores (inGroup req sur group)) →
        f.channel.id ∈ used → ∀ group ∈ req.getUserAutoGroup.drop w.startGroupIndex, ¬FreshIn req sur used group) := by
  unfold walkAutoGroups at h
  split at h
  · next hnil =>
    obtain ⟨hin,he⟩ := relaxedPass_some hb h
    exact ⟨hin,he,by simp [hnil]⟩
  · split at h
    · next heq =>
      obtain ⟨hin,he,hnew⟩ := strictPass_some (heq ▸ h)
      exact ⟨hin,he,fun _ hused => absurd hused hnew⟩
    · next heq =>
      obtain ⟨hin,he⟩ := relaxedPass_some hb h
      exact ⟨hin,he,fun hroom _ => strictPass_none hb hroom (by rw [heq])⟩

/-! The pin. -/

/-- The retry counter is at 0 and the stored binding names an eligible channel that the request has used. -/
def PinsUsed (req : Request) (sur : Surroundings) (used : List ℤ) (w : Walk) : Prop :=
  w.retry = 0 ∧ ∃ binding ∈ sur.binding, ∃ ch ∈ getSatisfiedChannelByID sur.cache binding.2 req.modelName binding.1,
    Eligible req sur ch ∧ ch.id ∈ used

lemma pinned_eq_some :
    pinned req sur retry = some (ch,group) ↔ retry = 0 ∧ Eligible req sur ch ∧ ∃ id, sur.binding = some (id,group) ∧
      getSatisfiedChannelByID sur.cache group req.modelName id = some ch := by
  have hlookup : lookupAffinityChannel req sur = some (ch,group) ↔
      (req.tenantID = "" ∨ Serves req.tenantID ch) ∧ ∃ id, sur.binding = some (id,group) ∧
        getSatisfiedChannelByID sur.cache group req.modelName id = some ch := by
    unfold lookupAffinityChannel
    split
    · next h => simp [h]
    · next id g h =>
      rw [h]
      split
      · next hnone =>
        simp only [reduceCtorEq,false_iff]
        rintro ⟨_,i,heq,hget⟩
        cases heq
        simp [hnone] at hget
      · next d hd =>
        split
        · next htenant =>
          have ht : req.tenantID = "" ∨ Serves req.tenantID d := by simpa using htenant
          constructor
          · intro heq
            cases heq
            exact ⟨ht,id,rfl,hd⟩
          · rintro ⟨_,i,heq,hget⟩
            cases heq
            rw [some.inj (hd.symm.trans hget)]
        · next htenant =>
          simp only [reduceCtorEq,false_iff]
          rintro ⟨ht,i,heq,hget⟩
          cases heq
          obtain rfl := some.inj (hd.symm.trans hget)
          exact htenant (by simpa using ht)
  unfold pinned
  split
  · next hzero =>
    rw [filter_eq_some_iff,hlookup,andChannelPredicates_all]
    simp only [forall_mem_cons,not_mem_nil,false_implies,implies_true,and_true,cooldownPredicate_all]
    constructor
    · rintro ⟨⟨htenant,hbound⟩,hmoda,hpro,hcool⟩
      exact ⟨hzero,⟨htenant,hpro,hmoda,hcool⟩,hbound⟩
    · rintro ⟨_,⟨htenant,hpro,hmoda,hcool⟩,hbound⟩
      exact ⟨⟨htenant,hbound⟩,hmoda,hpro,hcool⟩
  · next hzero => simp [hzero]

/-- A routing table as a process has it: after a rebuild, and whatever status changes came since. -/
def Reached (cache : Cache) : Prop :=
  ∃ db paused acts, cache = (run ChannelCache.step (State.rebuilt db paused) acts).cache

lemma Reached.backed (h : Reached cache) : Backed cache := by
  obtain ⟨db,paused,acts,rfl⟩ := h
  exact run_stable (I := fun s : State => Backed s.cache) (fun _ act hs => backed_step hs act) acts
    (backed_rebuild db paused)

lemma selected_without_pin (hb : Backed sur.cache) (hpin : pinned req sur w.retry = none)
    (h : (cacheGetRandomSatisfiedChannel req sur used w).result = .ok (some ch)) :
    (∃ group ∈ searched req {}, ch ∈ inGroup req sur group) ∧ Eligible req sur ch ∧
      ((∀ group ∈ searched req w, Roomy sur.scores (inGroup req sur group)) → ch.id ∈ used →
      ¬Fresh req sur used w) := by
  obtain ⟨hauto,_,f,hf,rfl⟩ | ⟨hplain,hsel⟩ := (result_unpinned hpin).mp h
  · obtain ⟨hin,he,hlast⟩ := walkAutoGroups_some hb hf
    simp only [Fresh,searched,if_pos hauto]
    refine ⟨⟨_,mem_of_getElem? (walkAutoGroups_group hf),hin⟩,he,fun hroom hused ⟨group,hg,hfresh⟩ => ?_⟩
    exact hlast hroom hused group hg hfresh
  · obtain ⟨hin,he,hlast⟩ := selectChannelWhere_some hb hsel
    simp only [Fresh,searched,if_neg hplain]
    exact ⟨⟨_,mem_singleton_self _,hin⟩,he,by simpa using hlast⟩

/-- A used channel is selected only where nothing fresh is left, unless a pin brings it back. -/
theorem selection_eligible_iff (req : Request) (sur : Surroundings) (used : List ℤ) (w : Walk)
    (hcache : Reached sur.cache)
    (hroom : ∀ group ∈ searched req w, Roomy sur.scores (inGroup req sur group)) :
    (∀ ch, (cacheGetRandomSatisfiedChannel req sur used w).result = .ok (some ch) →
      Eligible req sur ch ∧ (ch.id ∈ used → ¬Fresh req sur used w)) ↔
        ¬(PinsUsed req sur used w ∧ Fresh req sur used w) := by
  cases hpin : pinned req sur w.retry with
  | none =>
    refine iff_of_true (fun ch h => (selected_without_pin hcache.backed hpin h).2.imp_right (· hroom)) ?_
    rintro ⟨⟨hzero,⟨id,group⟩,hbin,ch,hch,he,_⟩,_⟩
    have hsome := pinned_eq_some.mpr ⟨hzero,he,id,hbin,hch⟩
    rw [hpin] at hsome
    cases hsome
  | some pin =>
    obtain ⟨ch,group⟩ := pin
    have hres : (cacheGetRandomSatisfiedChannel req sur used w).result = .ok (some ch) := by
      simp [cacheGetRandomSatisfiedChannel,hpin]
    obtain ⟨hzero,he,id,hbin,hch⟩ := pinned_eq_some.mp hpin
    constructor
    · rintro h ⟨⟨_,bound,hbound,d,hd,_,hused⟩,hfresh⟩
      obtain rfl := some.inj (hbin.symm.trans hbound)
      obtain rfl := some.inj (hch.symm.trans hd)
      exact (h ch hres).2 hused hfresh
    · intro hno d hd
      rw [hres] at hd
      cases hd
      refine ⟨he,fun hused hfresh => hno ⟨⟨hzero,(id,group),hbin,ch,hch,he,hused⟩,hfresh⟩⟩

def groupChannels : Channels :=
  ⟨[{ id := 1, models := ["m"], group := ["a"] },{ id := 2, models := ["m"], group := ["a"] },
    { id := 3, models := ["m"], group := ["b"] }],by decide⟩

def groupRequest : Request where
  tokenGroup := "auto"
  modelName := "m"
  crossGroupRetry := true
  autoGroupsSetting := ["a","b"]
  usableGroups := ["a","b"]
  retryTimes := 1

def groupSurroundings (binding : Option (ℤ × String)) : Surroundings :=
  { cache := rebuildChannelCache groupChannels fun _ _ => false, binding }

/-- A selection of the request, on a first attempt or with the binding that the one before it stored. -/
def groupSelection (binding : Option (ℤ × String)) (used : List ℤ) (w : Walk) : Selection :=
  cacheGetRandomSatisfiedChannel groupRequest (groupSurroundings binding) used w

def groupFirst : Selection := groupSelection none [] {}

def groupSecond : Selection := groupSelection (some (1,groupFirst.selectGroup)) [1] groupFirst.walk.increaseRetry

theorem used_channel_pinned_again :
    groupFirst.result.toOption.join.map Channel.id = some 1 ∧ groupSecond.result.toOption.join.map Channel.id = some 2 ∧
      groupSecond.walk.increaseRetry = ⟨0,false,some 1⟩ ∧
      (groupSelection (some (2,groupSecond.selectGroup)) [1,2] groupSecond.walk.increaseRetry).result.toOption.join.map
        Channel.id = some 2 ∧
      Fresh groupRequest (groupSurroundings (some (2,groupSecond.selectGroup)))
      [1,2] groupSecond.walk.increaseRetry := by
  decide

theorem fresh_channel_selected :
    let third := groupSelection none [1,2] groupSecond.walk.increaseRetry
    third.result.toOption.join.map Channel.id = some 3 ∧ ∀ ch, third.result = .ok (some ch) →
      Eligible groupRequest (groupSurroundings none) ch ∧
        (ch.id ∈ [(1 : ℤ),2] → ¬Fresh groupRequest (groupSurroundings none) [1,2] groupSecond.walk.increaseRetry) := by
  refine ⟨by decide,?_⟩
  refine (selection_eligible_iff _ _ _ _ ⟨groupChannels,fun _ _ => false,[],rfl⟩ (by decide +kernel)).mpr ?_
  rintro ⟨⟨_,_,hbin,_⟩,_⟩
  cases hbin

end LurusHub.ChannelSelect
