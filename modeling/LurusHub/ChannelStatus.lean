import LurusHub.ChannelCache
import LurusHub.Transition

/-! Status changes in the routing table. The index does not know a channel's status, so
every writer of a status has to take the channel out of the index itself. -/
namespace LurusHub.ChannelCache
open Transition KeyedTable List Option

/-- Takes the first entry of the id out of every list of the index. -/
def cacheUpdateChannelStatus (cache : Cache) (id : ℤ) (status : ChannelStatus) : Cache where
  channelsIDM := cache.channelsIDM.modify id fun c => { c with status }
  group2model2channels group model :=
    if status ≠ .enabled then (cache.group2model2channels group model).erase id
    else cache.group2model2channels group model

/-- An unknown key counts as the first one. -/
def keyIndex (channel : Channel) (usingKey : String) : ℕ := (channel.keys.findIdx? (· = usingKey)).getD 0

def keyStatuses (channel : Channel) (usingKey : String) (status : ChannelStatus) :
    KeyedTable (ℕ × ChannelStatus) ℕ Prod.fst :=
  if status = .enabled then channel.channelInfo.multiKeyStatusList.delete (keyIndex channel usingKey)
  else channel.channelInfo.multiKeyStatusList.put (keyIndex channel usingKey,status)

/-- A channel none of whose keys is left goes off, on the channel itself only. -/
def handlerMultiKeyUpdate (usingKey : String) (status : ChannelStatus) (channel : Channel) : Channel :=
  { channel with
    status :=
      if channel.keys = [] then status
      else if channel.channelInfo.multiKeySize ≤ (keyStatuses channel usingKey status).size then .autoDisabled
      else channel.status
    channelInfo :=
      if channel.keys = [] then channel.channelInfo
      else { channel.channelInfo with multiKeyStatusList := keyStatuses channel usingKey status } }

lemma handlerMultiKeyUpdate_id (ch : Channel) :
    (handlerMultiKeyUpdate usingKey status ch).id = ch.id := rfl

/-- The earliest deadline of a key that is not enabled; 0 stands for none. -/
def earliestRecovery (info : ChannelInfo) : ℤ :=
  info.multiKeyCooldownUntil.rows.foldl (fun earliest row =>
    if (info.multiKeyStatusList.get? row.1).map Prod.snd = some .enabled then earliest
    else if earliest = 0 || row.2 < earliest then row.2 else earliest) 0

def parkKey (info : ChannelInfo) (index : ℕ) (cooldownUntil : ℤ) : ChannelInfo :=
  { info with
    multiKeyStatusList := info.multiKeyStatusList.put (index,.autoDisabled)
    multiKeyCooldownUntil := info.multiKeyCooldownUntil.put (index,cooldownUntil) }

/-- An unknown key is left alone. Besides the channel, when its first key comes back if none is left. -/
def applyMultiKeyCooldownOpt (usingKey : String) (cooldownUntil : ℤ) (keepStatus : Bool) (channel : Channel) :
    Channel × ℤ :=
  match channel.keys.findIdx? (· = usingKey) with
  | none => (channel,0)
  | some index =>
    let info := parkKey channel.channelInfo index cooldownUntil
    if info.multiKeyStatusList.size < info.multiKeySize then ({ channel with channelInfo := info },0)
    else ({ channel with channelInfo := info, status := if keepStatus then channel.status else .autoDisabled },
      earliestRecovery info)

lemma applyMultiKeyCooldownOpt_id (k : String) (till : ℤ) (keep : Bool) (ch : Channel) :
    (applyMultiKeyCooldownOpt k till keep ch).1.id = ch.id := by
  unfold applyMultiKeyCooldownOpt
  split
  · rfl
  · dsimp only
    split <;> rfl

structure State where
  db : Channels
  cache : Cache

/-- The cached channel is updated in place; a channel with one key leaves the index with its status. -/
def updateCached (cache : Cache) (channelId : ℤ) (usingKey : String) (status : ChannelStatus)
    (cached : Channel) : Cache :=
  if cached.channelInfo.isMultiKey then
    { cache with channelsIDM := cache.channelsIDM.modify channelId (handlerMultiKeyUpdate usingKey status) }
  else cacheUpdateChannelStatus cache channelId status

/-- Cache first, then the database; returns whether a row was written. -/
def updateChannelStatus (s : State) (channelId : ℤ) (usingKey : String) (status : ChannelStatus) : State × Bool :=
  match s.cache.channelsIDM.get? channelId with
  | none => (s,false)
  | some cached =>
    if cached.channelInfo.isMultiKey = false ∧ cached.status = status then (s,false)
    else
      let cache := updateCached s.cache channelId usingKey status cached
      match s.db.get? channelId with
      | none => (⟨s.db,cache⟩,false)
      | some channel =>
        if channel.status = status then (⟨s.db,cache⟩,false)
        else if channel.channelInfo.isMultiKey then
          (⟨s.db.modify channelId (handlerMultiKeyUpdate usingKey status),cache⟩,true)
        else (⟨s.db.modify channelId (fun c => { c with status }),cache⟩,true)

/-- Parks the key in the cached channel and takes a channel that went off out of the index. -/
def parkCached (cache : Cache) (channelId : ℤ) (usingKey : String) (cooldownUntil : ℤ) (keepStatus : Bool)
    (cached : Channel) : Cache :=
  let after := (applyMultiKeyCooldownOpt usingKey cooldownUntil keepStatus cached).1
  let cache : Cache := ⟨cache.group2model2channels,cache.channelsIDM.modify channelId
    (fun c => (applyMultiKeyCooldownOpt usingKey cooldownUntil keepStatus c).1) (applyMultiKeyCooldownOpt_id _ _ _)⟩
  if cached.status ≠ after.status ∧ after.status ≠ .enabled then cacheUpdateChannelStatus cache channelId after.status
  else cache

/-- Besides the state, whether a key was parked and when the first key comes back if none is left. -/
def markMultiKeyCooldownReport (s : State) (channelId : ℤ) (usingKey : String) (cooldownUntil : ℤ) (keepStatus : Bool) :
    State × Bool × ℤ :=
  if cooldownUntil ≤ 0 then (s,false,0)
  else
    match s.cache.channelsIDM.get? channelId with
    | none => (s,false,0)
    | some cached =>
      if cached.channelInfo.isMultiKey = false then (s,false,0)
      else
        let cache := parkCached s.cache channelId usingKey cooldownUntil keepStatus cached
        match s.db.get? channelId with
        | none => (⟨s.db,cache⟩,false,0)
        | some channel =>
          if channel.channelInfo.isMultiKey = false then (⟨s.db,cache⟩,false,0)
          else
            (⟨s.db.modify channelId (fun c => (applyMultiKeyCooldownOpt usingKey cooldownUntil keepStatus c).1)
                (applyMultiKeyCooldownOpt_id _ _ _),cache⟩,true,
              (applyMultiKeyCooldownOpt usingKey cooldownUntil keepStatus channel).2)

inductive Act
  | rebuildChannelCache (paused : Paused)
  | store (db : Channels)
  | updateChannelStatus (channelId : ℤ) (usingKey : String) (status : ChannelStatus)
  | cacheUpdateChannelStatus (channelId : ℤ) (status : ChannelStatus)
  | markMultiKeyCooldownReport (channelId : ℤ) (usingKey : String) (cooldownUntil : ℤ) (keepStatus : Bool)

def step (s : State) : Act → State
  | .rebuildChannelCache paused => { s with cache := ChannelCache.rebuildChannelCache s.db paused }
  | .store db => { s with db }
  | .updateChannelStatus channelId usingKey status => (ChannelCache.updateChannelStatus s channelId usingKey status).1
  | .cacheUpdateChannelStatus channelId status =>
    { s with cache := ChannelCache.cacheUpdateChannelStatus s.cache channelId status }
  | .markMultiKeyCooldownReport channelId usingKey cooldownUntil keepStatus =>
    (ChannelCache.markMultiKeyCooldownReport s channelId usingKey cooldownUntil keepStatus).1

def State.rebuilt (db : Channels) (paused : Paused) : State := ⟨db,ChannelCache.rebuildChannelCache db paused⟩

/-! No channel is selected that is not enabled. -/

/-- Neither selection returns a channel that is not enabled. -/
def Safe (cache : Cache) : Prop :=
  (∀ scores tenantID group model retry pred draw c,
    getRandomSatisfiedChannelWhere cache scores tenantID group model retry pred draw = .ok (some c) →
      c.status = .enabled) ∧
    ∀ group model channelId c, getSatisfiedChannelByID cache group model channelId = some c → c.status = .enabled

def Backed (cache : Cache) : Prop :=
  ∀ group model, ∀ id ∈ cache.group2model2channels group model, ∃ c, cache.channelsIDM.get? id = some c

/-- The lists of the index are no longer than the memory of a process. -/
def Sized (cache : Cache) : Prop := ∀ group model, (cache.group2model2channels group model).length < 2^55

def Clean (cache : Cache) : Prop :=
  ∀ group model, ∀ id ∈ cache.group2model2channels group model, ∀ c, cache.channelsIDM.get? id = some c →
    c.status = .enabled

variable {cache : Cache} {id : ℤ}

lemma resolve_eq (h : resolve cache ids = .ok cs) : cs = ids.filterMap cache.channelsIDM.get? := by
  induction ids generalizing cs with
  | nil =>
    cases h
    rfl
  | cons id ids ih =>
    rw [resolve] at h
    split at h
    · next d ds hd hds =>
      cases h
      rw [filterMap_cons_some hd,ih hds]
    · cases h
    · cases h

lemma choose_mem (h : choose scores cs retry draw = .ok (some c)) : c ∈ cs := by
  unfold choose at h
  split at h
  · next d =>
    cases h
    exact mem_cons_self
  · exact (mem_filter.mp (mem_of_drawFrom h)).1

lemma exists_choose (h : cs ≠ []) (hroom : Roomy scores cs) : ∃ c, choose scores cs retry draw = .ok (some c) := by
  unfold choose
  split
  · next c => exact ⟨c,rfl⟩
  · obtain ⟨c,_,heq,_⟩ := (drawFrom_iff h (hroom.tier retry) _).mp ⟨draw,rfl⟩
    exact ⟨c,heq⟩

lemma exists_resolve (h : ∀ id ∈ ids, ∃ c, cache.channelsIDM.get? id = some c) :
    ∃ cs, resolve cache ids = .ok cs ∧ cs.length = ids.length := by
  induction ids with
  | nil => exact ⟨[],rfl,rfl⟩
  | cons id ids ih =>
    obtain ⟨c,hc⟩ := h id mem_cons_self
    obtain ⟨cs,hcs,hlen⟩ := ih fun i hi => h i (mem_cons_of_mem _ hi)
    exact ⟨c::cs,by simp [resolve,hc,hcs],by simp [hlen]⟩

lemma mem_listed (h : id ∈ cache.listed group model) :
    ∃ m, id ∈ cache.group2model2channels group m := by
  unfold Cache.listed at h
  dsimp only at h
  split at h
  · exact ⟨_,h⟩
  · exact ⟨_,h⟩

lemma Backed.listed (h : Backed cache)
    (hid : id ∈ cache.listed group model) : ∃ c, cache.channelsIDM.get? id = some c := by
  obtain ⟨m,hm⟩ := mem_listed hid
  exact h group m id hm

lemma listed_of_mem (h : id ∈ cache.group2model2channels group model) :
    cache.listed group model = cache.group2model2channels group model := by
  simp [Cache.listed,ne_nil_of_mem h]

def accepted (cache : Cache) (tenantID group model : String) (pred : Option (Channel → Bool)) : List ℤ :=
  let channels := filterChannelsForTenant cache (cache.listed group model) tenantID
  (pred.map (filterChannelsWhere cache channels)).getD channels

lemma mem_accepted (hc : cache.channelsIDM.get? id = some c) :
    id ∈ accepted cache tid group model pred ↔
      id ∈ cache.listed group model ∧ (tid = "" ∨ Serves tid c) ∧ pred.all (· c) := by
  have htenant : id ∈ filterChannelsForTenant cache (cache.listed group model) tid ↔
      id ∈ cache.listed group model ∧ (tid = "" ∨ Serves tid c) := by
    unfold filterChannelsForTenant
    split
    · next h => simp [h]
    · next h => simp [h,keepIds,hc]
  cases pred with
  | none => simp [accepted,htenant]
  | some p => simp [accepted,filterChannelsWhere,keepIds,htenant,hc,and_assoc]

lemma getRandomSatisfiedChannelWhere_accepted (h : accepted cache tid group model pred ≠ []) :
    getRandomSatisfiedChannelWhere cache scores tid group model retry pred draw =
      (resolve cache (accepted cache tid group model pred)).bind fun cs => choose scores cs retry draw := by
  have hne : filterChannelsForTenant cache (cache.listed group model) tid ≠ [] := by
    intro hnil
    cases pred <;> simp [accepted,hnil,filterChannelsWhere,keepIds] at h
  simp only [getRandomSatisfiedChannelWhere,if_neg hne]
  exact if_neg h

lemma getRandomSatisfiedChannelWhere_miss (h : accepted cache tid group model pred = []) :
    getRandomSatisfiedChannelWhere cache scores tid group model retry pred draw ≠ .ok (some c) := by
  unfold accepted at h
  simp only [getRandomSatisfiedChannelWhere]
  split <;> simp

lemma selected_accepted
    (h : getRandomSatisfiedChannelWhere cache scores tid group model retry pred draw = .ok (some c)) :
    ∃ id ∈ cache.listed group model, cache.channelsIDM.get? id = some c ∧
      (tid = "" ∨ Serves tid c) ∧ pred.all (· c) := by
  by_cases hne : accepted cache tid group model pred = []
  · exact absurd h (getRandomSatisfiedChannelWhere_miss hne)
  · rw [getRandomSatisfiedChannelWhere_accepted hne] at h
    cases hcs : resolve cache (accepted cache tid group model pred) with
    | error e =>
      rw [hcs] at h
      cases h
    | ok cs =>
      rw [hcs] at h
      have hmem := choose_mem h
      rw [resolve_eq hcs] at hmem
      obtain ⟨id,hid,hget⟩ := mem_filterMap.mp hmem
      obtain ⟨hlisted,hpass⟩ := (mem_accepted hget).mp hid
      exact ⟨id,hlisted,hget,hpass⟩

lemma exists_selected (hb : Backed cache) (hid : id ∈ cache.listed group model)
    (hc : cache.channelsIDM.get? id = some c) (htenant : tenantID = "" ∨ Serves tenantID c)
    (hpred : pred.all (· c)) (hroom : Roomy scores ((cache.listed group model).filterMap cache.channelsIDM.get?))
    (retry draw : ℕ) : ∃ d, getRandomSatisfiedChannelWhere cache scores tenantID group model retry
    pred draw = .ok (some d) := by
  have hmem : id ∈ accepted cache tenantID group model pred := (mem_accepted hc).mpr ⟨hid,htenant,hpred⟩
  have hlisted : (accepted cache tenantID group model pred).Sublist (cache.listed group model) := by
    have hten : (filterChannelsForTenant cache (cache.listed group model) tenantID).Sublist
      (cache.listed group model) := by
      unfold filterChannelsForTenant
      split
      · exact Sublist.refl _
      · exact filter_sublist
    cases pred with
    | none => exact hten
    | some p => exact filter_sublist.trans hten
  obtain ⟨cs,hcs,hlen⟩ := exists_resolve fun i hi => hb.listed (hlisted.subset hi)
  have hcsne : cs ≠ [] := by
    rw [← length_pos_iff,hlen]
    exact length_pos_of_mem hmem
  have hfit : Roomy scores cs := by
    rw [resolve_eq hcs]
    exact hroom.sublist (hlisted.filterMap _)
  obtain ⟨d,hcho⟩ := exists_choose hcsne hfit
  refine ⟨d,?_⟩
  rw [getRandomSatisfiedChannelWhere_accepted (ne_nil_of_mem hmem),hcs]
  exact hcho

lemma Sized.roomy (h : Sized cache) (group model : String) :
    Roomy (fun _ => some fun _ => 1) ((cache.listed group model).filterMap cache.channelsIDM.get?) := by
  have hlen : (cache.listed group model).length < 2^55 := by
    unfold Cache.listed
    dsimp only
    split <;> exact h _ _
  have hle := length_filterMap_le cache.channelsIDM.get? (cache.listed group model)
  have hone : ∀ c, number (weightOf (fun _ => some fun _ => 1) c)*100+100 = 200 := fun _ => rfl
  simp only [Roomy,hone,map_const',sum_replicate_nat]
  omega

lemma select_by_id (hb : Backed cache) (hsize : Sized cache)
    (hid : id ∈ cache.group2model2channels group model) (hc : cache.channelsIDM.get? id = some c) :
    getRandomSatisfiedChannelWhere cache (fun _ => some fun _ => 1) "" group model 0 (some fun d => d.id = id) 0 =
      .ok (some c) := by
  have hlisted : id ∈ cache.listed group model := by rwa [listed_of_mem hid]
  have hself : Option.all (· c) (some fun d : Channel => decide (d.id = id)) := by simpa using key_of_get? hc
  obtain ⟨d,hd⟩ := exists_selected hb hlisted hc (.inl rfl) hself (hsize.roomy group model) 0 0
  obtain ⟨i,_,hget,_,hself⟩ := selected_accepted hd
  have hi : i = id := by
    rw [← key_of_get? hget]
    simpa using hself
  rw [hi,hc] at hget
  rwa [Option.some.inj hget]

lemma safe_iff_clean (hb : Backed cache) (hsize : Sized cache) : Safe cache ↔ Clean cache := by
  constructor
  · intro hsafe group model id hid c hc
    exact hsafe.1 _ _ _ _ _ _ _ c (select_by_id hb hsize hid hc)
  · intro hcle
    refine ⟨fun scores tenantID group model retry pred draw c h => ?_,fun group model cid c h => ?_⟩
    · obtain ⟨id,hid,hget,_⟩ := selected_accepted h
      obtain ⟨m,hm⟩ := mem_listed hid
      exact hcle group m id hm c hget
    · unfold getSatisfiedChannelByID at h
      split at h
      · cases h
      · split at h
        · next hid =>
          obtain ⟨m,hm⟩ := mem_listed hid
          exact hcle group m cid hm c h
        · cases h

/-! What a writer may do. -/

def Once (cache : Cache) (id : ℤ) : Prop := ∀ group model, (cache.group2model2channels group model).count id ≤ 1

def Unlisted (cache : Cache) (id : ℤ) : Prop := ∀ group model, id ∉ cache.group2model2channels group model

lemma Unlisted.once (h : Unlisted cache id) : Once cache id := by
  intro group model
  rw [count_eq_zero.mpr (h group model)]
  exact Nat.zero_le 1

lemma Clean.unlisted (h : Clean cache)
    (hc : cache.channelsIDM.get? id = some c) (hs : c.status ≠ .enabled) : Unlisted cache id :=
  fun group model hid => hs (h group model id hid c hc)

def otherParked (c : Channel) (usingKey : String) : ℕ :=
  (c.channelInfo.multiKeyStatusList.delete (keyIndex c usingKey)).size

/-- The update of a key leaves the channel without a usable key, or turns a channel without keys off. -/
def Disables (c : Channel) (usingKey : String) (status : ChannelStatus) : Prop :=
  if c.keys = [] then status ≠ .enabled
  else c.channelInfo.multiKeySize ≤ otherParked c usingKey+(if status = .enabled then 0 else 1)

def ParksLast (c : Channel) (usingKey : String) (keepStatus : Bool) : Prop :=
  usingKey ∈ c.keys ∧ keepStatus = false ∧ c.channelInfo.multiKeySize ≤ otherParked c usingKey+1

/-- A multi-key update does not disable a channel that is listed; a channel that is taken off is listed once
in every list. -/
def Guarded (s : State) : Act → Prop
  | .rebuildChannelCache _ | .store _ => True
  | .cacheUpdateChannelStatus channelId status => status = .enabled ∨ Once s.cache channelId
  | .updateChannelStatus channelId usingKey status => ∀ c, s.cache.channelsIDM.get? channelId = some c →
    if c.channelInfo.isMultiKey then Disables c usingKey status → Unlisted s.cache channelId
    else status = .enabled ∨ Once s.cache channelId
  | .markMultiKeyCooldownReport channelId usingKey cooldownUntil keepStatus =>
    0 < cooldownUntil → ∀ c, s.cache.channelsIDM.get? channelId = some c → c.channelInfo.isMultiKey = true →
      ParksLast c usingKey keepStatus → Once s.cache channelId

lemma keyStatuses_size (c : Channel) (k : String) (status : ChannelStatus) :
    (keyStatuses c k status).size = otherParked c k+(if status = .enabled then 0 else 1) := by
  unfold keyStatuses
  split
  · rfl
  · exact size_put _ _

lemma handlerMultiKeyUpdate_enabled (h : c.status = .enabled) :
    (handlerMultiKeyUpdate k status c).status = .enabled ↔ ¬Disables c k status := by
  have hsize := keyStatuses_size c k status
  unfold handlerMultiKeyUpdate Disables
  split
  · simp
  · split_ifs <;> simp_all

lemma applyMultiKeyCooldownOpt_status (usingKey : String) (till : ℤ) (keepStatus : Bool) (c : Channel) :
    (applyMultiKeyCooldownOpt usingKey till keepStatus c).1.status = .autoDisabled ∧
        ParksLast c usingKey keepStatus ∨
      (applyMultiKeyCooldownOpt usingKey till keepStatus c).1.status = c.status ∧
        ¬ParksLast c usingKey keepStatus := by
  unfold applyMultiKeyCooldownOpt
  split
  · next hnone =>
    refine .inr ⟨rfl,fun h => ?_⟩
    exact absurd h.1 fun hmem => by simpa using findIdx?_eq_none_iff.mp hnone usingKey hmem
  · next index hindex =>
    have hkey : keyIndex c usingKey = index := by simp [keyIndex,hindex]
    have hmem : usingKey ∈ c.keys := by
      obtain ⟨hlt,hk,_⟩ := findIdx?_eq_some_iff_getElem.mp hindex
      have heq : c.keys[index] = usingKey := by simpa using hk
      exact heq ▸ getElem_mem hlt
    have hsize : ((parkKey c.channelInfo index till).multiKeyStatusList.size : ℤ) = otherParked c usingKey+1 := by
      simp [parkKey,otherParked,hkey,size_put]
    have hkeep : (parkKey c.channelInfo index till).multiKeySize = c.channelInfo.multiKeySize := rfl
    dsimp only
    split
    · next hlt => exact .inr ⟨rfl,fun h => absurd h.2.2 (by omega)⟩
    · next hge =>
      cases keepStatus with
      | true => exact .inr ⟨rfl,fun h => nomatch h.2.1⟩
      | false => exact .inl ⟨rfl,hmem,rfl,by omega⟩

/-! The cache after each writer. -/

def CleanBut (cache : Cache) (id : ℤ) : Prop :=
  ∀ group model, ∀ i ∈ cache.group2model2channels group model, i ≠ id → ∀ c, cache.channelsIDM.get? i = some c →
    c.status = .enabled

lemma Clean.but (h : Clean cache) (id : ℤ) : CleanBut cache id :=
  fun group model i hi _ c hc => h group model i hi c hc

def Cache.change (cache : Cache) (id : ℤ) (f : Channel → Channel) (hf : ∀ c, (f c).id = c.id) : Cache :=
  ⟨cache.group2model2channels,cache.channelsIDM.modify id f hf⟩

lemma Clean.change_but (h : Clean cache) (hf : ∀ c, (f c).id = c.id) :
    CleanBut (cache.change id f hf) id := by
  intro group model i hi hne c hc
  rw [Cache.change,get?_modify_of_ne _ f hf hne] at hc
  exact h group model i hi c hc

lemma Backed.change (h : Backed cache) (id : ℤ) (hf : ∀ c, (f c).id = c.id) :
    Backed (cache.change id f hf) := by
  intro group model i hi
  obtain ⟨c,hc⟩ := h group model i hi
  simp only [Cache.change,get?_modify,hc]
  split <;> simp

lemma clean_change_iff (h : Clean cache)
    (hc : cache.channelsIDM.get? id = some c) (hf : ∀ c, (f c).id = c.id) :
    Clean (cache.change id f hf) ↔ (f c).status = .enabled ∨ Unlisted cache id := by
  have hself : (cache.change id f hf).channelsIDM.get? id = some (f c) := by
    rw [Cache.change,get?_modify_self,hc,map_some]
  constructor
  · intro hcle
    by_contra hnot
    obtain ⟨hoff,hlisted⟩ := not_or.mp hnot
    exact hlisted fun group model hid => hoff (hcle group model id hid (f c) hself)
  · intro hor group model i hi d hd
    by_cases hne : i = id
    · subst hne
      obtain rfl := some.inj (hself.symm.trans hd)
      exact hor.resolve_right fun hun => hun group model hi
    · exact h.change_but hf group model i hi hne d hd

lemma get?_cacheUpdate : (cacheUpdateChannelStatus cache id status).channelsIDM.get? i =
      if i = id then (cache.channelsIDM.get? i).map fun c => { c with status } else cache.channelsIDM.get? i :=
  get?_modify cache.channelsIDM id i (fun c => { c with status }) fun _ => rfl

lemma mem_of_mem_cacheUpdate
    (h : i ∈ (cacheUpdateChannelStatus cache id status).group2model2channels group model) :
    i ∈ cache.group2model2channels group model := by
  simp only [cacheUpdateChannelStatus] at h
  split at h
  · exact mem_of_mem_erase h
  · exact h

lemma Backed.cacheUpdate (h : Backed cache) : Backed (cacheUpdateChannelStatus cache id status) := by
  intro group model i hi
  obtain ⟨c,hc⟩ := h group model i (mem_of_mem_cacheUpdate hi)
  rw [get?_cacheUpdate,hc]
  split <;> simp

theorem clean_cacheUpdate_iff (hb : Backed cache) (h : CleanBut cache id) :
    Clean (cacheUpdateChannelStatus cache id status) ↔ status = .enabled ∨ Once cache id := by
  constructor
  · intro hcle
    by_contra hnot
    obtain ⟨hoff,htwi⟩ := not_or.mp hnot
    refine htwi fun group model => ?_
    by_contra hcount
    have hleft : id ∈ (cache.group2model2channels group model).erase id := by
      rw [← count_pos_iff,count_erase_self]
      omega
    obtain ⟨c,hc⟩ := hb group model id (mem_of_mem_erase hleft)
    refine hoff (hcle group model id ?_ { c with status } ?_)
    · simpa [cacheUpdateChannelStatus,hoff] using hleft
    · rw [get?_cacheUpdate,if_pos rfl,hc,map_some]
  · intro hor group model i hi d hd
    by_cases hne : i = id
    · subst hne
      by_cases hon : status = .enabled
      · rw [get?_cacheUpdate,if_pos rfl] at hd
        obtain ⟨c,_,rfl⟩ := map_eq_some_iff.mp hd
        exact hon
      · have honce := hor.resolve_left hon group model
        simp only [cacheUpdateChannelStatus,ne_eq,hon,not_false_eq_true,if_true] at hi
        rw [← count_pos_iff,count_erase_self] at hi
        omega
    · rw [get?_cacheUpdate,if_neg hne] at hd
      exact h group model i (mem_of_mem_cacheUpdate hi) hne d hd

lemma clean_rebuild : Clean (rebuildChannelCache db paused) := by
  intro group model id hid c hc
  rw [index_rebuild] at hid
  obtain ⟨d,hd,rfl⟩ := mem_map.mp hid
  obtain ⟨hrow,hoffe⟩ := mem_indexed.mp hd
  obtain rfl := some.inj ((get?_of_mem hrow).symm.trans hc)
  exact hoffe.1

lemma backed_rebuild (db : Channels) (paused : Paused) : Backed (rebuildChannelCache db paused) := by
  intro group model id hid
  rw [index_rebuild] at hid
  obtain ⟨d,hd,rfl⟩ := mem_map.mp hid
  exact ⟨d,get?_of_mem (mem_indexed.mp hd).1⟩

/-! The cache after a call. -/

lemma updateChannelStatus_cache : (updateChannelStatus s cid k status).1.cache =
      match s.cache.channelsIDM.get? cid with
      | none => s.cache
      | some cached =>
        if cached.channelInfo.isMultiKey = false ∧ cached.status = status then s.cache
        else updateCached s.cache cid k status cached := by
  unfold updateChannelStatus
  split
  · rfl
  · split
    · rfl
    · repeat' split
      all_goals rfl

lemma markMultiKeyCooldownReport_cache :
    (markMultiKeyCooldownReport s cid k till keep).1.cache =
      if till ≤ 0 then s.cache
      else
        match s.cache.channelsIDM.get? cid with
        | none => s.cache
        | some cached =>
          if cached.channelInfo.isMultiKey = false then s.cache
          else parkCached s.cache cid k till keep cached := by
  unfold markMultiKeyCooldownReport
  split
  · rfl
  · split
    · rfl
    · split
      · rfl
      · repeat' split
        all_goals rfl

lemma updateCached_multiKey (h : cached.channelInfo.isMultiKey) (k : String) :
    updateCached cache cid k status cached =
      cache.change cid (handlerMultiKeyUpdate k status) handlerMultiKeyUpdate_id := by
  rw [updateCached,if_pos h]
  rfl

lemma updateCached_singleKey (h : cached.channelInfo.isMultiKey = false) (k : String) :
    updateCached cache cid k status cached = cacheUpdateChannelStatus cache cid status := by
  rw [updateCached,if_neg (by simp [h])]

lemma parkCached_eq : parkCached cache cid k till keep cached =
      let parked := cache.change cid (fun c => (applyMultiKeyCooldownOpt k till keep c).1)
        (applyMultiKeyCooldownOpt_id _ _ _)
      let after := (applyMultiKeyCooldownOpt k till keep cached).1.status
      if cached.status ≠ after ∧ after ≠ .enabled then cacheUpdateChannelStatus parked cid after else parked := rfl

lemma clean_park_iff (hb : Backed cache) (h : Clean cache) (hc : cache.channelsIDM.get? id = some c) :
    Clean (parkCached cache id k till keep c) ↔
      (ParksLast c k keep → Once cache id) := by
  have hid := applyMultiKeyCooldownOpt_id k till keep
  rw [parkCached_eq]
  rcases applyMultiKeyCooldownOpt_status k till keep c with ⟨hoff,hlast⟩ | ⟨hsame,hnot⟩
  · simp only [hoff,hlast,forall_const]
    split
    · rw [clean_cacheUpdate_iff (hb.change id hid) (h.change_but hid)]
      exact or_iff_right (by decide)
    · next hkept =>
      -- the channel was off before, and so not listed
      have hwas : c.status = .autoDisabled := by
        by_contra hne
        exact hkept ⟨hne,by decide⟩
      have hun := h.unlisted hc (by simp [hwas])
      exact iff_of_true ((clean_change_iff h hc hid).mpr (.inr hun)) hun.once
  · simp only [hsame,hnot,ne_eq,not_true_eq_false,false_and,if_false,false_implies,iff_true]
    rw [clean_change_iff h hc hid,hsame]
    by_cases hon : c.status = .enabled
    · exact .inl hon
    · exact .inr (h.unlisted hc hon)

lemma clean_update_iff (hb : Backed cache) (h : Clean cache) (hc : cache.channelsIDM.get? id = some c) :
    Clean (updateCached cache id k status c) ↔
      if c.channelInfo.isMultiKey then Disables c k status → Unlisted cache id
      else status = .enabled ∨ Once cache id := by
  split
  · next hmulti =>
    rw [updateCached_multiKey hmulti,clean_change_iff h hc]
    by_cases hon : c.status = .enabled
    · rw [handlerMultiKeyUpdate_enabled hon]
      tauto
    · have hun := h.unlisted hc hon
      exact iff_of_true (.inr hun) fun _ => hun
  · next hsin =>
    rw [updateCached_singleKey (by simpa using hsin)]
    exact clean_cacheUpdate_iff hb (h.but id)

lemma backed_step (h : Backed s.cache) (act : Act) : Backed (step s act).cache := by
  cases act with
  | rebuildChannelCache paused => exact backed_rebuild s.db paused
  | store db => exact h
  | cacheUpdateChannelStatus cid status => exact h.cacheUpdate
  | updateChannelStatus cid k status =>
    rw [step,updateChannelStatus_cache]
    split
    · exact h
    · next cached _ =>
      split
      · exact h
      · cases hmulti : cached.channelInfo.isMultiKey with
        | true => exact updateCached_multiKey hmulti k ▸ h.change cid _
        | false => exact updateCached_singleKey hmulti k ▸ h.cacheUpdate
  | markMultiKeyCooldownReport cid k cooldownUntil keepStatus =>
    rw [step,markMultiKeyCooldownReport_cache]
    split
    · exact h
    · split
      · exact h
      · split
        · exact h
        · rw [parkCached_eq]
          dsimp only
          split
          · exact (h.change cid _).cacheUpdate
          · exact h.change cid _

lemma clean_step_iff (hb : Backed s.cache) (h : Clean s.cache) :
    Clean (step s act).cache ↔ Guarded s act := by
  cases act with
  | rebuildChannelCache paused => exact iff_of_true clean_rebuild trivial
  | store db => exact iff_of_true h trivial
  | cacheUpdateChannelStatus cid status => exact clean_cacheUpdate_iff hb (h.but cid)
  | updateChannelStatus cid k status =>
    rw [step,updateChannelStatus_cache,Guarded]
    split
    · next hnone => exact iff_of_true h (by simp [hnone])
    · next cached hc =>
      simp only [hc,some.injEq,forall_eq']
      split
      · next hskip =>
        -- the status is the one asked for
        refine iff_of_true h ?_
        rw [if_neg (by simp [hskip.1])]
        by_cases hon : status = .enabled
        · exact .inl hon
        · exact .inr (h.unlisted hc (hskip.2 ▸ hon)).once
      · exact clean_update_iff hb h hc
  | markMultiKeyCooldownReport cid k cooldownUntil keepStatus =>
    rw [step,markMultiKeyCooldownReport_cache,Guarded]
    split
    · next hpast => exact iff_of_true h fun hfut => absurd hfut (by omega)
    · next hfut =>
      split
      · next hnone => exact iff_of_true h (by simp [hnone])
      · next cached hc =>
        simp only [hc,some.injEq,forall_eq',not_le.mp hfut,forall_const]
        split
        · next hsin => exact iff_of_true h (by simp [hsin])
        · next hmulti =>
          rw [forall_prop_of_true (by simpa using hmulti)]
          exact clean_park_iff hb h hc

theorem only_enabled_selected_iff (db : Channels) (paused : Paused) (acts : List Act)
    (hsize : Always step (fun s => Sized s.cache) (State.rebuilt db paused) acts) :
    Always step (fun s => Safe s.cache) (State.rebuilt db paused) acts ↔
      Along step Guarded (State.rebuilt db paused) acts := by
  have hbac := backed_rebuild db paused
  have hboth := always_of_step (I := fun s : State => Backed s.cache) (fun s act hb _ => backed_step hb act) hbac hsize
  refine (hboth.congr hsize fun s hb hs => safe_iff_clean hb hs).trans ?_
  exact always_iff_along (J := fun s : State => Backed s.cache) (fun s act hb => backed_step hb act)
    (fun s act hb hcle => clean_step_iff hb hcle) acts hbac clean_rebuild

def single (c : Channel) : Channels := ⟨[c],List.nodup_singleton _⟩

def lastKeyChannel : Channel :=
  { id := 1, keys := ["k"], models := ["m"], group := ["default"]
    channelInfo := { isMultiKey := true, multiKeySize := 1 } }

def twiceListed : Channel := { id := 1, models := ["m","m"], group := ["default"] }

theorem disabled_channel_selected :
    let lastKey := run step (State.rebuilt (single lastKeyChannel) fun _ _ => false)
      [.updateChannelStatus 1 "k" .autoDisabled]
    let twice := run step (State.rebuilt (single twiceListed) fun _ _ => false)
      [.cacheUpdateChannelStatus 1 .manuallyDisabled]
    (getSatisfiedChannelByID lastKey.cache "default" "m" 1).map Channel.status = some .autoDisabled ∧
      (getSatisfiedChannelByID twice.cache "default" "m" 1).map Channel.status = some .manuallyDisabled ∧
      getRandomSatisfiedChannelWhere twice.cache (fun _ => none) "" "default" "m" 0 none 0 =
        .ok (some { twiceListed with status := .manuallyDisabled }) := by
  decide

theorem parked_channel_not_selected :
    let s := State.rebuilt (single lastKeyChannel) fun _ _ => false
    Always step (fun s => Safe s.cache) s [.markMultiKeyCooldownReport 1 "k" 60 false] ∧
      (getSatisfiedChannelByID
      (run step s [.markMultiKeyCooldownReport 1 "k" 60 false]).cache "default" "m" 1) = none := by
  intro s
  have hindex : ∀ group model, s.cache.group2model2channels group model = [] ∨
      s.cache.group2model2channels group model = [1] := by
    intro group model
    simp only [s,State.rebuilt,rebuildChannelCache,single,lastKeyChannel,entries,decide_true,filter_cons_of_pos,
      filter_nil,flatMap_singleton]
    split <;> simp
  have hlen : ∀ group model, (s.cache.group2model2channels group model).length < 2^55 := by
    intro group model
    rcases hindex group model with h | h <;> simp [h]
  have hsize : Always step (fun s => Sized s.cache) s [.markMultiKeyCooldownReport 1 "k" 60 false] :=
    ⟨hlen,fun group model => length_erase_le.trans_lt (hlen group model)⟩
  refine ⟨(only_enabled_selected_iff _ _ _ hsize).mpr ⟨?_,trivial⟩,by decide⟩
  intro _ c hc _ _ group model
  change (s.cache.group2model2channels group model).count 1 ≤ 1
  rcases hindex group model with h | h <;> simp [h]

end LurusHub.ChannelCache
