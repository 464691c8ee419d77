import LurusHub.BreakerRegistry
import LurusHub.ChannelEligibility

/-! Fallback routing. A model is usable if the selector would be shown a channel of it whose breaker
admits; the selector then also looks at cooldowns, which the fallback does not. -/
namespace LurusHub.RoutingFallback
open ChannelCache ChannelSelect List
open CircuitBreaker (Registry)

structure RoutingCandidate where
  (id model : String)

structure RoutingPolicy where
  publicModel : String
  candidates : List RoutingCandidate
  named : ∀ c ∈ candidates, c.model ≠ "" ∧ c.model ≠ publicModel

inductive Reason
  | primaryOK | noChannel | primaryUnavailable | noCandidate

structure Outcome where
  reason : Reason
  target : Option RoutingCandidate := none

def asking (req : Request) (model : String) : Request := { req with modelName := model }

/-- The channels the selector shows to a predicate that rejects all of them. -/
def cachedChannelIDs (req : Request) (sur : Surroundings) (group : String) : List ℤ :=
  (asked req sur group).map Channel.id

def groupsFor (req : Request) : List String :=
  if req.tokenGroup = "" then [] else if req.tokenGroup = "auto" then req.getUserAutoGroup else [req.tokenGroup]

def requestChannels (req : Request) (sur : Surroundings) (model : String) : List ℤ :=
  ((groupsFor req).flatMap (cachedChannelIDs (asking req model) sur)).eraseDups

section
variable (allOpen : List ℤ → Bool) (channels : String → List ℤ) (permitted : String → Bool)

def usable (model : String) : Bool := channels model ≠ [] && !allOpen (channels model)

def firstUsable (requested : String) : List RoutingCandidate → Option RoutingCandidate
  | [] => none
  | cd::cds =>
    if cd.model = "" || cd.model = requested || !permitted cd.model then firstUsable requested cds
    else if usable allOpen channels cd.model then some cd else firstUsable requested cds

def resolve (pol : RoutingPolicy) (requested : String) : Outcome :=
  if usable allOpen channels requested then ⟨.primaryOK,none⟩
  else
    match firstUsable allOpen channels permitted requested pol.candidates with
    | some cd => ⟨if channels requested = [] then .noChannel else .primaryUnavailable,some cd⟩
    | none => ⟨.noCandidate,none⟩

variable {allOpen channels permitted}

lemma firstUsable_eq (hn : ∀ c ∈ cds, c.model ≠ "" ∧ c.model ≠ requested) :
    firstUsable allOpen chans permitted requested cds =
      cds.find? fun c => permitted c.model && usable allOpen chans c.model := by
  induction cds with
  | nil => rfl
  | cons c cds ih =>
    rw [forall_mem_cons] at hn
    simp only [firstUsable,hn.1.1,hn.1.2,ih hn.2,find?_cons]
    cases permitted c.model <;> cases usable allOpen chans c.model <;> rfl

end

def Refuses (breakers : Registry) (now id : ℤ) : Prop := ∃ t ∈ breakers.readyAt id, now < t

/-- The model the request is rewritten to, for the policy of its model and an eligible body. -/
def target? (pol : RoutingPolicy) (req : Request) (sur : Surroundings) (breakers : Registry)
    (permitted : String → Bool) :
    Option String :=
  (resolve (fun ids => (breakers.allOpen ids sur.now).1.1)
    (requestChannels req sur) permitted pol pol.publicModel).target.map
    (·.model)

/-- The first selection for a model of the request. -/
def select (req : Request) (sur : Surroundings) (model : String) : Except SelectionError (Option Channel) :=
  (cacheGetRandomSatisfiedChannel (asking req model) sur [] {}).result

structure Sound (pol : RoutingPolicy) (req : Request) (sur : Surroundings) (breakers : Registry)
    (permitted : String → Bool) :
    Prop where
  needed : ∀ draw ch, select req { sur with draw } pol.publicModel = .ok (some ch) → ¬Refuses breakers sur.now ch.id →
    target? pol req sur breakers permitted = none
  allowed : ∀ t ∈ target? pol req sur breakers permitted, permitted t
  first : ∀ t ∈ target? pol req sur breakers permitted, ∃ before cd after, pol.candidates = before++cd::after ∧
    cd.model = t ∧ ∀ b ∈ before, permitted b.model → ∀ id ∈ requestChannels req sur b.model, Refuses breakers sur.now id
  served : ∀ t ∈ target? pol req sur breakers permitted, ∀ draw, ∃ ch, select req { sur with draw } t = .ok (some ch)

lemma usable_iff : usable (fun ids => (breakers.allOpen ids now).1.1) chans model ↔
    ∃ id ∈ chans model, ¬Refuses breakers now id := by
  simp only [usable,Bool.and_eq_true,decide_eq_true_eq,Bool.not_eq_true',Bool.eq_false_iff,ne_eq,
    Registry.allOpen_eq_true,Refuses]
  constructor
  · rintro ⟨hne,h⟩
    by_contra hno
    exact h ⟨hne,by simpa using hno⟩
  · rintro ⟨id,hid,h⟩
    exact ⟨ne_nil_of_mem hid,fun hall => h (hall.2 id hid)⟩

lemma mem_asked {ch : Channel} {req : Request} {sur : Surroundings} {group : String} :
    ch ∈ asked req sur group ↔ ch ∈ inGroup req sur group ∧ (req.tenantID = "" ∨ Serves req.tenantID ch) := by
  simp only [asked,inGroup,filterChannelsForTenant,mem_filterMap]
  split
  · next h => simp [h]
  · next h =>
    simp only [keepIds,mem_filter,h,false_or]
    constructor
    · rintro ⟨id,⟨hid,hs⟩,hget⟩
      exact ⟨⟨id,hid,hget⟩,by simpa [hget] using hs⟩
    · rintro ⟨⟨id,hid,hget⟩,hs⟩
      exact ⟨id,⟨hid,by simp [hget,hs]⟩,hget⟩

lemma selectChannelWhere_nil {draw : Bool → ℕ} :
    selectChannelWhere req sur group retry [] draw = selectChannelOnce req sur group retry [] true (draw true) := by
  unfold selectChannelWhere
  split <;> simp_all

lemma exists_result (hb : Backed sur.cache)
    (hroom : ∀ group ∈ searched req {}, Roomy sur.scores (inGroup req sur group))
    (hpin : sur.binding = none) (h : Fresh req sur [] {}) :
    ∃ ch, (cacheGetRandomSatisfiedChannel req sur [] {}).result = .ok (some ch) := by
  obtain ⟨group,hg,hfresh⟩ := h
  have hfound : ∀ i retry, ∃ c, selectChannelWhere req sur group retry [] (sur.draw false i) =
    .ok (some c) := fun i retry => by
    obtain ⟨ch,hch,he,hu⟩ := hfresh
    rw [selectChannelWhere_nil]
    exact selectChannelOnce_found hb (hroom group hg) hch he fun _ => hu
  have hnone : pinned req sur ({} : Walk).retry = none := by simp [pinned,lookupAffinityChannel,hpin]
  simp only [result_unpinned hnone]
  unfold searched at hg
  split at hg
  · next hauto =>
    have hset : req.autoGroupsSetting ≠ [] := by
      rintro hset
      simp [Request.getUserAutoGroup,hset] at hg
    cases hf : (walkAutoGroups req sur [] {}).2 with
    | some f => exact ⟨f.channel,.inl ⟨hauto,hset,f,rfl,rfl⟩⟩
    | none =>
      obtain ⟨i,retry,hmiss⟩ := runGroups_none _ _ hf group hg
      obtain ⟨c,hc⟩ := hfound i retry
      exact absurd hc (hmiss c)
  · next hplain =>
    obtain rfl := mem_singleton.mp hg
    exact (hfound 0 0).imp fun c hc => .inr ⟨hplain,hc⟩

lemma mem_requestChannels {id : ℤ} : id ∈ requestChannels req sur model ↔
    ∃ group ∈ groupsFor req, ∃ ch ∈ asked (asking req model) sur group, ch.id = id := by
  simp [requestChannels,cachedChannelIDs]

lemma groupsFor_eq (h : groupsFor req ≠ []) (model : String) : groupsFor req = searched (asking req model) {} := by
  unfold groupsFor at h ⊢
  split at h
  · exact absurd rfl h
  · next hne =>
    rw [if_neg hne]
    rfl

structure FirstAdmitting (pol : RoutingPolicy) (req : Request) (sur : Surroundings) (breakers : Registry)
    (permitted : String → Bool) (t : String) : Prop where
  refused : ∀ id ∈ requestChannels req sur pol.publicModel, Refuses breakers sur.now id
  allowed : permitted t
  admitting : ∃ id ∈ requestChannels req sur t, ¬Refuses breakers sur.now id
  first : ∃ before cd after, pol.candidates = before++cd::after ∧ cd.model = t ∧
    ∀ b ∈ before, permitted b.model → ∀ id ∈ requestChannels req sur b.model, Refuses breakers sur.now id

section
variable {pol : RoutingPolicy} {req : Request} {sur : Surroundings} {breakers : Registry} {permitted : String → Bool}
  {t : String}

lemma target?_eq_some : target? pol req sur breakers permitted = some t ↔
    FirstAdmitting pol req sur breakers permitted t := by
  have hunusable : ∀ m, ¬usable (fun ids => (breakers.allOpen ids sur.now).1.1) (requestChannels req sur) m ↔
      ∀ id ∈ requestChannels req sur m, Refuses breakers sur.now id := by
    intro m
    simp [usable_iff]
  have hfind : ∀ cd, pol.candidates.find? (fun c => permitted c.model &&
        usable (fun ids => (breakers.allOpen ids sur.now).1.1) (requestChannels req sur) c.model) = some cd ↔
      (permitted cd.model ∧ ∃ id ∈ requestChannels req sur cd.model, ¬Refuses breakers sur.now id) ∧
        ∃ before after, pol.candidates = before++cd::after ∧ ∀ b ∈ before, permitted b.model →
          ∀ id ∈ requestChannels req sur b.model, Refuses breakers sur.now id := by
    intro cd
    simp only [find?_eq_some_iff_append,Bool.and_eq_true,usable_iff,Bool.not_eq_true',← Bool.not_eq_true,not_and,
      not_exists,not_not]
  unfold target? resolve
  rw [firstUsable_eq pol.named]
  constructor
  · intro h
    split at h
    · cases h
    · next hpublic =>
      split at h
      · next cd hcd =>
        cases h
        obtain ⟨⟨hper,hadm⟩,before,after,heq,hbefore⟩ := (hfind cd).mp hcd
        exact ⟨(hunusable _).mp hpublic,hper,hadm,before,cd,after,heq,rfl,hbefore⟩
      · cases h
  · rintro ⟨hpublic,hper,hadm,before,cd,after,heq,rfl,hbefore⟩
    rw [if_neg ((hunusable _).mpr hpublic),(hfind cd).mpr ⟨⟨hper,hadm⟩,before,after,heq,hbefore⟩]
    rfl

lemma FirstAdmitting.mem_candidates (h : FirstAdmitting pol req sur breakers permitted t) :
    ∃ cd ∈ pol.candidates, cd.model = t := by
  obtain ⟨before,cd,after,heq,hcd,_⟩ := h.first
  exact ⟨cd,by simp [heq],hcd⟩

lemma FirstAdmitting.groupsFor_ne_nil (h : FirstAdmitting pol req sur breakers permitted t) : groupsFor req ≠ [] := by
  obtain ⟨id,hid,_⟩ := h.admitting
  obtain ⟨group,hg,_⟩ := mem_requestChannels.mp hid
  exact ne_nil_of_mem hg

lemma mem_of_select (hb : Backed sur.cache) (hg : groupsFor req ≠ []) (hp : sur.binding = none)
    (h : select req { sur with draw } model = .ok (some ch)) :
    ch.id ∈ requestChannels req sur model ∧ ¬Cools sur.cooldowns sur.now ch.id := by
  obtain ⟨⟨group,hgroup,hin⟩,he,_⟩ :=
    selected_without_pin (by exact hb) (by simp [pinned,lookupAffinityChannel,hp]) h
  rw [← groupsFor_eq hg] at hgroup
  exact ⟨mem_requestChannels.mpr ⟨group,hgroup,ch,mem_asked.mpr ⟨hin,he.tenant⟩,rfl⟩,he.cooldown⟩

lemma exists_select {id : ℤ} (hb : Backed sur.cache)
    (hroom : ∀ group ∈ groupsFor req, Roomy sur.scores (inGroup (asking req model) sur group))
    (hp : sur.binding = none) (hf : req.filter = none) (hm : sur.modality = none)
    (hid : id ∈ requestChannels req sur model) (hc : ¬Cools sur.cooldowns sur.now id) :
    ∃ ch, select req { sur with draw } model = .ok (some ch) := by
  obtain ⟨group,hg,ch,hch,rfl⟩ := mem_requestChannels.mp hid
  obtain ⟨hin,ht⟩ := mem_asked.mp hch
  have he : Eligible (asking req model) { sur with draw } ch :=
    ⟨ht,by simp [asking,Request.filterPred,hf],by simp [modalityPredicate,hm],hc⟩
  have hgroups := groupsFor_eq (ne_nil_of_mem hg) model
  rw [hgroups] at hg hroom
  exact exists_result hb hroom hp ⟨group,hg,ch,hin,he,not_mem_nil⟩

/-- The first candidate with an admitting channel needs one that is not cooling. -/
theorem fallback_sound_iff (pol : RoutingPolicy) (req : Request) (sur : Surroundings) (breakers : Registry)
    (permitted : String → Bool) (hc : Reached sur.cache) (hf : req.filter = none) (hm : sur.modality = none)
    (hp : sur.binding = none) (hroom : ∀ cd ∈ pol.candidates, ∀ group ∈ groupsFor req,
      Roomy sur.scores (inGroup (asking req cd.model) sur group)) : Sound pol req sur breakers permitted ↔
      ∀ t, FirstAdmitting pol req sur breakers permitted t →
        ∃ id ∈ requestChannels req sur t, ¬Cools sur.cooldowns sur.now id := by
  constructor
  · intro h t ht
    obtain ⟨ch,hch⟩ := h.served t (target?_eq_some.mpr ht) sur.draw
    exact ⟨ch.id,mem_of_select hc.backed ht.groupsFor_ne_nil hp hch⟩
  · refine fun h => ⟨fun draw ch hch hr => ?_,fun t ht => (target?_eq_some.mp ht).allowed,
      fun t ht => (target?_eq_some.mp ht).first,fun t ht draw => ?_⟩
    · by_contra hne
      obtain ⟨t,ht⟩ := Option.ne_none_iff_exists'.mp hne
      have hfirst := target?_eq_some.mp ht
      have hmem := mem_of_select hc.backed hfirst.groupsFor_ne_nil hp hch
      exact hr (hfirst.refused ch.id hmem.1)
    · have hfirst := target?_eq_some.mp ht
      obtain ⟨id,hid,hcool⟩ := h t hfirst
      obtain ⟨cd,hcd,rfl⟩ := hfirst.mem_candidates
      exact exists_select hc.backed (hroom cd hcd) hp hf hm hid hcool

end

def twoModels : Channels :=
  ⟨[{ id := 1, models := ["m"], group := ["g"], status := .autoDisabled },
    { id := 2, models := ["t"], group := ["g"] }],by decide⟩

def toT : RoutingPolicy := ⟨"m",[⟨"c","t"⟩],by decide⟩

def plain : Request := { tokenGroup := "g", modelName := "m", retryTimes := 0 }

/-- Channel 2 serves `t`; with `cooling` it is cooling until time 9. -/
def around (cooling : Bool) : Surroundings where
  cache := rebuildChannelCache twoModels fun _ _ => false
  cooldowns := { cooldownLocal := if cooling then ⟨[((2,0),9)],by decide⟩ else .empty }
  now := 5

def breakers : Registry := .newRegistry ⟨5,30,1,30⟩

theorem fallback_sound_warm : Sound toT plain (around false) breakers fun _ => true := by
  refine (fallback_sound_iff toT plain (around false) breakers (fun _ => true)
    ⟨twoModels,fun _ _ => false,[],rfl⟩ rfl rfl rfl
    (by decide +kernel)).mpr fun t ht => ?_
  obtain ⟨cd,hcd,rfl⟩ := ht.mem_candidates
  obtain rfl := mem_singleton.mp hcd
  decide +kernel

theorem rerouted_to_cooling_model : target? toT plain (around true) breakers (fun _ => true) = some "t" ∧
    (select plain (around true) "t").isOk = false := by
  decide +kernel

end LurusHub.RoutingFallback
