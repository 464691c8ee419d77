import LurusHub.ChannelCache

/-! Selecting a channel for one attempt. A selection in a group goes through the modality, provider,
used-channel and cooldown predicates; the auto group walks the user's groups, and what it leaves in
the request steers the next attempt. -/
namespace LurusHub.ChannelSelect
open ChannelCache

/-! Cooldowns. -/

abbrev Deadlines := KeyedTable ((ℤ × ℤ) × ℤ) (ℤ × ℤ) Prod.fst

def deadline (d : Deadlines) (slot : ℤ × ℤ) : ℤ := ((d.get? slot).map Prod.snd).getD 0

structure Cooldowns where
  cooldownLocal : Deadlines := .empty
  cooldownRemote : Deadlines := .empty

def coolingUntil (cooldowns : Cooldowns) (now channelID keyIdx : ℤ) : ℤ :=
  let own := deadline cooldowns.cooldownLocal (channelID,keyIdx)
  let shared := deadline cooldowns.cooldownRemote (channelID,keyIdx)
  let live := if now < own then own else 0
  if now < shared ∧ live < shared then shared else live

def anyCooldownActive (cooldowns : Cooldowns) (now : ℤ) : Bool :=
  cooldowns.cooldownLocal.rows.any (fun row => now < row.2) || cooldowns.cooldownRemote.rows.any
    (fun row => now < row.2)

/-- The earlier of two deadlines, where 0 stands for none yet. -/
def earlier (earliest u : ℤ) : ℤ := if earliest = 0 ∨ u < earliest then u else earliest

/-! Predicates. -/

/-- `none` is the nil predicate, which accepts every channel. -/
abbrev ChannelPredicate := Option (Channel → Bool)

def cooldownPredicate (cooldowns : Cooldowns) (now : ℤ) : ChannelPredicate :=
  if anyCooldownActive cooldowns now then some fun ch => coolingUntil cooldowns now ch.id 0 ≤ 0 else none

def usedChannelPredicate (used : List ℤ) : ChannelPredicate :=
  if used = [] then none else some fun ch => ch.id ∉ used

def andChannelPredicates (preds : List ChannelPredicate) : ChannelPredicate :=
  match preds.reduceOption with
  | [] => none
  | live => some fun ch => live.all (· ch)

inductive Fit
  | fits | mismatched | adapterUnsupported
  deriving DecidableEq

structure Modality where
  required : String
  enforce : Bool
  fit : Channel → Fit

/-- Without `enforce` a channel that does not fit is counted and let through. -/
def modalityPredicate (modality : Option Modality) (model : String) : ChannelPredicate :=
  if model = "" then none else modality.map fun m ch => m.fit ch = .fits || !m.enforce

structure ProviderFilter where
  text : String
  accepts : Channel → Bool

/-! One selection in a group. -/

inductive SelectionError
  | repo (e : SelectError)
  | allChannelsCooling (retryAfterUnix : ℤ)
  | modalityMiss (required : String) (mismatched adapterUnsupported : ℕ)
  | autoGroupsNotEnabled
  deriving DecidableEq

structure Request where
  (tokenGroup modelName : String)
  tenantID : String := ""
  filter : Option ProviderFilter := none
  crossGroupRetry : Bool := false
  autoGroupsSetting : List String := []
  usableGroups : List String := []
  retryTimes : ℕ

def Request.getUserAutoGroup (req : Request) : List String := req.autoGroupsSetting.filter (· ∈ req.usableGroups)

def Request.groupCount (req : Request) : ℕ := if req.tokenGroup = "auto" then req.getUserAutoGroup.length else 0

def Request.filterPred (req : Request) : ChannelPredicate := req.filter.map ProviderFilter.accepts

structure Surroundings where
  cache : Cache
  scores : Scores := fun _ => none
  cooldowns : Cooldowns := {}
  now : ℤ := 0
  modality : Option Modality := none
  binding : Option (ℤ × String) := none
  draw : Bool → ℕ → Bool → ℕ := fun _ _ _ => 0

def asked (req : Request) (sur : Surroundings) (group : String) : List Channel :=
  (filterChannelsForTenant sur.cache (sur.cache.listed group req.modelName) req.tenantID).filterMap
    sur.cache.channelsIDM.get?

def noted (req : Request) (sur : Surroundings) (group : String) (before : ChannelPredicate) : List ℤ :=
  ((asked req sur group).filter fun ch => before.all (· ch) && decide
    (0 < coolingUntil sur.cooldowns sur.now ch.id 0)).map
    fun ch => coolingUntil sur.cooldowns sur.now ch.id 0

/-- A miss while something was cooling is a cooling miss. -/
def classifySelectionMiss (e : SelectError) (deadlines : List ℤ) : SelectionError :=
  if e = .noChannelSatisfiesPredicate ∧ deadlines ≠ [] then .allChannelsCooling (deadlines.foldl earlier 0) else .repo e

def classifyModalityMiss (e : SelectionError) (modality : Option Modality) (model : String) (channels : List Channel) :
    SelectionError :=
  match modality with
  | none => e
  | some m =>
    let mismatched := channels.countP fun ch => m.fit ch = .mismatched
    let adapterUnsupported := channels.countP fun ch => m.fit ch = .adapterUnsupported
    let passed := channels.countP fun ch => m.fit ch = .fits || !m.enforce
    if e = .repo .noChannelSatisfiesPredicate ∧ model ≠ "" ∧ passed = 0 ∧ mismatched+adapterUnsupported ≠ 0 then
      .modalityMiss m.required mismatched adapterUnsupported
    else e

def channelServes (ch : Channel) (group model : String) : Bool :=
  group ∈ ch.group && (model ∈ ch.models || formatMatchingModelName model ∈ ch.models)

/-- When the first key of a channel that went off with all its keys cooling comes back. -/
def keyRecovery (now : ℤ) (ch : Channel) : Option ℤ :=
  let info := ch.channelInfo
  if ch.status = .autoDisabled ∧ info.isMultiKey = true ∧ 0 < info.multiKeySize ∧
      info.multiKeySize ≤ info.multiKeyCooldownUntil.size then
    let earliest := info.multiKeyCooldownUntil.rows.foldl (fun earliest row => earlier earliest row.2) 0
    if earliest ≤ 0 then none else some (max earliest (now+1))
  else none

def earliestMultiKeyRecovery (cache : Cache) (now : ℤ) (tenantID group model : String) (pred : ChannelPredicate) :
    Option ℤ :=
  ((cache.channelsIDM.rows.filter fun ch =>
    (tenantID = "" || Serves tenantID ch) && channelServes ch group model && pred.all
      (· ch)).filterMap (keyRecovery now)).min?

/-- With used channels excluded the retry starts over at the first tier. -/
def selectChannelOnce (req : Request) (sur : Surroundings) (group : String) (retry : ℕ) (used : List ℤ)
    (excludeUsed : Bool) (draw : ℕ) : Except SelectionError (Option Channel) :=
  let before := andChannelPredicates [modalityPredicate sur.modality req.modelName,req.filterPred,
    if excludeUsed then usedChannelPredicate used else none]
  let pred := andChannelPredicates [before,cooldownPredicate sur.cooldowns sur.now]
  match getRandomSatisfiedChannelWhere sur.cache sur.scores req.tenantID group req.modelName
      (if excludeUsed && used ≠ [] then 0 else retry) pred draw with
  | .ok (some ch) => .ok (some ch)
  | .ok none =>
    match earliestMultiKeyRecovery sur.cache sur.now req.tenantID group req.modelName req.filterPred with
    | some u => .error (.allChannelsCooling u)
    | none => .ok none
  | .error e =>
    .error (classifyModalityMiss (classifySelectionMiss e (noted req sur group before)) sur.modality req.modelName
      (asked req sur group))

def IsMiss : SelectionError → Bool
  | .repo .noChannelSatisfiesPredicate | .allChannelsCooling _ => true
  | _ => false

/-- Used channels are excluded softly: where that leaves nothing, the selection runs again without the exclusion. -/
def selectChannelWhere (req : Request) (sur : Surroundings) (group : String) (retry : ℕ) (used : List ℤ)
    (draw : Bool → ℕ) : Except SelectionError (Option Channel) :=
  match selectChannelOnce req sur group retry used true (draw true) with
  | .error e =>
    if used ≠ [] ∧ IsMiss e = true then
      match selectChannelOnce req sur group retry used false (draw false) with
      | .ok none => .error e
      | again => again
    else .error e
  | found => found

/-! The walk over the auto groups. -/

structure Walk where
  retry : ℕ := 0
  resetNextTry : Bool := false
  autoGroupIndex : Option ℕ := none
  deriving DecidableEq

namespace Walk

def startGroupIndex (w : Walk) : ℕ := w.autoGroupIndex.getD 0

/-- An increment is swallowed if the walk asked for it. -/
def increaseRetry (w : Walk) : Walk :=
  if w.resetNextTry then { w with resetNextTry := false } else { w with retry := w.retry+1 }

def pass (w : Walk) (i : ℕ) : Walk := { w with retry := 0, autoGroupIndex := some (i+1) }

/-- A channel was selected in the group of the index; a group whose retries are used up is left for the next one. -/
def take (w : Walk) (i : ℕ) (switch : Bool) : Walk :=
  if switch then ⟨0,true,some (i+1)⟩ else { w with autoGroupIndex := some i }

end Walk

structure Misses where
  filterMiss : Bool := false
  modalityErr : Option SelectionError := none
  coolingErr : Option ℤ := none

def Misses.note (misses : Misses) : SelectionError → Misses
  | .repo .noChannelSatisfiesPredicate => { misses with filterMiss := true }
  | .modalityMiss required mismatched adapterUnsupported =>
    { misses with modalityErr := misses.modalityErr.or (some (.modalityMiss required mismatched adapterUnsupported)) }
  | .allChannelsCooling u =>
    { misses with coolingErr := some (match misses.coolingErr with | some v => if u < v then u else v | none => u) }
  | _ => misses

/-- Cooling outranks the provider filter, which outranks the modality. -/
def Misses.answer (misses : Misses) : Except SelectionError (Option Channel) :=
  match misses.coolingErr with
  | some u => .error (.allChannelsCooling u)
  | none =>
    if misses.filterMiss then .error (.repo .noChannelSatisfiesPredicate)
    else match misses.modalityErr with
      | some e => .error e
      | none => .ok none

structure Found where
  index : ℕ
  group : String
  channel : Channel

section
variable (select : ℕ → String → ℕ → Except SelectionError (Option Channel)) (crossGroupRetry : Bool)
  (retryTimes start : ℕ)

/-- One pass over the groups from the index `i` on. The retry counts in the group the pass starts with; every later
group starts over. -/
def runGroups : List String → ℕ → Walk × Misses → (Walk × Misses) × Option Found
  | [],_,acc => (acc,none)
  | group::groups,i,(w,misses) =>
    let priorityRetry := if start < i then 0 else w.retry
    match select i group priorityRetry with
    | .ok (some channel) =>
      ((w.take i (crossGroupRetry && decide (retryTimes ≤ priorityRetry)),misses),some ⟨i,group,channel⟩)
    | .ok none => runGroups groups (i+1) (w.pass i,misses)
    | .error e => runGroups groups (i+1) (w.pass i,misses.note e)

end

/-- A pass over the auto groups; a strict one has no soft fallback inside a group. -/
def groupPass (req : Request) (sur : Surroundings) (used : List ℤ) (strict : Bool) (w : Walk) :
    (Walk × Misses) × Option Found :=
  runGroups (fun i group retry =>
      if strict then selectChannelOnce req sur group retry used true (sur.draw true i true)
      else selectChannelWhere req sur group retry used (sur.draw false i))
    req.crossGroupRetry req.retryTimes w.startGroupIndex
      (req.getUserAutoGroup.drop w.startGroupIndex) w.startGroupIndex (w,{})

/-- A strict pass that finds nothing is rewound before the relaxed one. -/
def walkAutoGroups (req : Request) (sur : Surroundings) (used : List ℤ) (w : Walk) : (Walk × Misses) × Option Found :=
  if used = [] then groupPass req sur used false w
  else
    match groupPass req sur used true w with
    | (acc,some found) => (acc,some found)
    | ((w',_),none) =>
      groupPass req sur used false { w' with retry := w.retry, autoGroupIndex := some w.startGroupIndex }

def lookupAffinityChannel (req : Request) (sur : Surroundings) : Option (Channel × String) :=
  match sur.binding with
  | none => none
  | some (channelId,group) =>
    match getSatisfiedChannelByID sur.cache group req.modelName channelId with
    | none => none
    | some channel => if req.tenantID = "" || Serves req.tenantID channel then some (channel,group) else none

/-- The pin is consulted on a first attempt only. -/
def pinned (req : Request) (sur : Surroundings) (retry : ℕ) : Option (Channel × String) :=
  let pred := andChannelPredicates [modalityPredicate sur.modality req.modelName,req.filterPred,
    cooldownPredicate sur.cooldowns sur.now]
  if retry = 0 then (lookupAffinityChannel req sur).filter fun pin => pred.all (· pin.1) else none

structure Selection where
  walk : Walk
  selectGroup : String
  result : Except SelectionError (Option Channel)

def cacheGetRandomSatisfiedChannel (req : Request) (sur : Surroundings) (used : List ℤ) (w : Walk) : Selection :=
  match pinned req sur w.retry with
  | some (channel,group) => ⟨w,group,.ok (some channel)⟩
  | none =>
    if req.tokenGroup = "auto" then
      if req.autoGroupsSetting = [] then ⟨w,req.tokenGroup,.error .autoGroupsNotEnabled⟩
      else
        match walkAutoGroups req sur used w with
        | ((w',_),some found) => ⟨w',found.group,.ok (some found.channel)⟩
        | ((w',misses),none) => ⟨w',req.tokenGroup,misses.answer⟩
    else ⟨w,req.tokenGroup,selectChannelWhere req sur req.tokenGroup w.retry used (sur.draw false 0)⟩

def SelectionError.text (req : Request) (group : String) : SelectionError → String
  | .repo .noChannelSatisfiesPredicate =>
    "no channel satisfies provider filter ("++(req.filter.map ProviderFilter.text).getD ""++")"
  | .repo (.databaseConsistency channelId) =>
    "database consistency error: channel #"++toString channelId++" does not exist, please contact an administrator"
  | .repo (.noChannelFound priority) =>
    "no channel found, group: "++group++", model: "++req.modelName++", priority: "++toString priority
  | .repo .channelNotFound => "channel not found"
  | .repo .intnPanic => "invalid argument to Intn"
  | .allChannelsCooling _ => "all channels for the requested model are cooling down after upstream rate limits"
  | .modalityMiss required _ _ => "no route supports "++required++" requests"
  | .autoGroupsNotEnabled => "auto groups is not enabled"

/-! How far the walk gets. -/

def Walks (req : Request) (sur : Surroundings) (w : Walk) : Bool :=
  (pinned req sur w.retry).isNone && req.tokenGroup = "auto" && req.autoGroupsSetting ≠ []

def selectedGroup (req : Request) (sur : Surroundings) (used : List ℤ) (w : Walk) : Option ℕ :=
  if Walks req sur w then (walkAutoGroups req sur used w).2.map Found.index else none

lemma cacheGetRandomSatisfiedChannel_walk : (cacheGetRandomSatisfiedChannel req sur used w).walk =
      if Walks req sur w then (walkAutoGroups req sur used w).1.1 else w := by
  unfold cacheGetRandomSatisfiedChannel Walks
  split
  · next hpin => simp [hpin]
  · next hpin =>
    split
    · next hauto =>
      split
      · next hsetting => simp [hsetting]
      · next hsetting =>
        rw [if_pos (by simp [hpin,hauto,hsetting])]
        split <;> next heq => rw [heq]
    · next hauto => simp [hauto]

@[simp] lemma Walk.increaseRetry_startGroupIndex (w : Walk) : w.increaseRetry.startGroupIndex = w.startGroupIndex := by
  unfold Walk.increaseRetry
  split <;> rfl

structure Walk.Leads (n : ℕ) (w v : Walk) : Prop where
  clear : v.increaseRetry.resetNextTry = false
  ahead : v.startGroupIndex = w.startGroupIndex ∧ v.increaseRetry.retry = w.retry+1 ∨
    w.startGroupIndex < v.startGroupIndex ∧ w.startGroupIndex < n

variable {w : Walk}

lemma Walk.Leads.le (h : w.Leads n v) : w.startGroupIndex ≤ v.startGroupIndex := by
  rcases h.ahead with ⟨h,_⟩ | ⟨h,_⟩ <;> omega

lemma Walk.leads_self (h : w.resetNextTry = false) (n : ℕ) : w.Leads n w := by
  refine ⟨?_,.inl ⟨rfl,?_⟩⟩ <;> simp [Walk.increaseRetry,h]

lemma Walk.Leads.of_same {u v : Walk} (h : u.Leads n v) (hindex : u.startGroupIndex = w.startGroupIndex)
    (hret : u.retry = w.retry) : w.Leads n v :=
  ⟨h.clear,hindex ▸ hret ▸ h.ahead⟩

section
variable (select : ℕ → String → ℕ → Except SelectionError (Option Channel)) (crossGroupRetry : Bool) (retryTimes : ℕ)

def Walk.At (w : Walk) (i : ℕ) (v : Walk) : Prop :=
  i = w.startGroupIndex ∧ v = w ∨ w.startGroupIndex < i ∧ v = ⟨0,false,some i⟩

structure Walk.Ends (n : ℕ) (w : Walk) (result : (Walk × Misses) × Option Found) : Prop where
  leads : w.Leads n result.1.1
  missed : result.2 = none → result.1.1.resetNextTry = false
  found : ∀ f, result.2 = some f → w.startGroupIndex ≤ f.index ∧ f.index ≤ result.1.1.startGroupIndex

lemma Walk.At.le (h : w.At i v) : w.startGroupIndex ≤ i := by
  rcases h with ⟨h,_⟩ | ⟨h,_⟩ <;> omega

lemma Walk.At.clear (h : w.At i v) (hcle : w.resetNextTry = false) : v.resetNextTry = false := by
  rcases h with ⟨_,rfl⟩ | ⟨_,rfl⟩
  · exact hcle
  · rfl

lemma Walk.At.take_ends (hat : w.At i v) (hcle : w.resetNextTry = false)
    (hn : w.startGroupIndex < n) :
    w.Ends n ((v.take i switch,misses),some ⟨i,group,channel⟩) := by
  have hle := hat.le
  cases switch with
  | true =>
    refine ⟨⟨rfl,.inr ⟨Nat.lt_succ_of_le hle,hn⟩⟩,(nofun),?_⟩
    rintro f ⟨⟩
    exact ⟨hle,Nat.le_succ i⟩
  | false =>
    refine ⟨⟨?_,?_⟩,(nofun),?_⟩
    · simp [Walk.take,Walk.increaseRetry,hat.clear hcle]
    · rcases hat with ⟨rfl,rfl⟩ | ⟨hlt,rfl⟩
      · exact .inl ⟨rfl,by simp [Walk.take,Walk.increaseRetry,hcle]⟩
      · exact .inr ⟨hlt,hn⟩
    · rintro f ⟨⟩
      exact ⟨hle,le_rfl⟩

lemma runGroups_ends (hcle : w.resetNextTry = false) (groups : List String) (i : ℕ) (v : Walk)
    (misses : Misses) (hat : w.At i v) (hn : groups ≠ [] ∨ w.startGroupIndex < i → w.startGroupIndex < n) :
    w.Ends n (runGroups select crossGroupRetry retryTimes w.startGroupIndex groups i (v,misses)) := by
  induction groups generalizing i v misses with
  | nil =>
    rcases hat with ⟨_,rfl⟩ | ⟨hlt,rfl⟩
    · exact ⟨Walk.leads_self hcle n,fun _ => hcle,fun _ h => nomatch h⟩
    · exact ⟨⟨rfl,.inr ⟨hlt,hn (.inr hlt)⟩⟩,fun _ => rfl,fun _ h => nomatch h⟩
  | cons group groups ih =>
    have hlt : w.startGroupIndex < n := hn (.inl (by simp))
    have hnext : ∀ misses', w.Ends n
        (runGroups select crossGroupRetry retryTimes w.startGroupIndex groups (i+1) (v.pass i,misses')) := by
      intro misses'
      refine ih (i+1) _ misses' (.inr ⟨Nat.lt_succ_of_le hat.le,?_⟩) fun _ => hlt
      simp [Walk.pass,hat.clear hcle]
    rw [runGroups]
    split
    · exact hat.take_ends hcle hlt
    · exact hnext _
    · exact hnext _

end

lemma groupPass_ends (req : Request) (sur : Surroundings) (used : List ℤ) (strict : Bool)
    (hcle : w.resetNextTry = false) :
    w.Ends req.getUserAutoGroup.length (groupPass req sur used strict w) := by
  refine runGroups_ends _ _ _ hcle _ _ _ _ (.inl ⟨rfl,rfl⟩) ?_
  rintro (hne | hlt)
  · exact not_le.mp fun hle => hne (List.drop_eq_nil_iff.mpr hle)
  · exact absurd hlt (lt_irrefl _)

lemma walkAutoGroups_ends (hcle : w.resetNextTry = false) :
    w.Ends req.getUserAutoGroup.length (walkAutoGroups req sur used w) := by
  unfold walkAutoGroups
  split
  · exact groupPass_ends req sur used false hcle
  · have hstr := groupPass_ends req sur used true hcle
    split
    · next acc found heq => exact heq ▸ hstr
    · next w' misses heq =>
      have hcle' : w'.resetNextTry = false := by
        have h := hstr.missed
        rw [heq] at h
        exact h rfl
      -- the relaxed pass sets out from the same group with the same retry
      have hrel := groupPass_ends req sur used false
        (w:={ w' with retry := w.retry, autoGroupIndex := some w.startGroupIndex }) hcle'
      exact ⟨hrel.leads.of_same rfl rfl,hrel.missed,hrel.found⟩

lemma cacheGetRandomSatisfiedChannel_leads (req : Request) (sur : Surroundings) (used : List ℤ)
    (hcle : w.resetNextTry = false) :
    w.Leads req.groupCount (cacheGetRandomSatisfiedChannel req sur used w).walk := by
  rw [cacheGetRandomSatisfiedChannel_walk]
  split
  · next hwal =>
    have hauto : req.tokenGroup = "auto" := by
      simp only [Walks,Bool.and_eq_true,decide_eq_true_eq] at hwal
      exact hwal.1.2
    rw [Request.groupCount,if_pos hauto]
    exact (walkAutoGroups_ends hcle).leads
  · exact Walk.leads_self hcle _

lemma selectedGroup_between (req : Request) (sur : Surroundings) (used : List ℤ)
    (hcle : w.resetNextTry = false) (h : selectedGroup req sur used w = some i) :
    w.startGroupIndex ≤ i ∧ i ≤ (cacheGetRandomSatisfiedChannel req sur used w).walk.startGroupIndex := by
  unfold selectedGroup at h
  split at h
  · next hwal =>
    obtain ⟨f,hf,rfl⟩ := Option.map_eq_some_iff.mp h
    rw [cacheGetRandomSatisfiedChannel_walk,if_pos hwal]
    exact (walkAutoGroups_ends hcle).found f hf
  · cases h

/-! A selection in an auto group names the group. -/

lemma runGroups_group (groups : List String) (i : ℕ) (acc : Walk × Misses)
    (h : (runGroups select crossGroupRetry retryTimes start groups i acc).2 = some f) :
    i ≤ f.index ∧ groups[f.index-i]? = some f.group := by
  induction groups generalizing i acc with
  | nil => cases h
  | cons group groups ih =>
    have hnext : ∀ acc', (runGroups select crossGroupRetry retryTimes start groups (i+1) acc').2 = some f →
        i ≤ f.index ∧ (group::groups)[f.index-i]? = some f.group := by
      intro acc' h
      obtain ⟨hle,hget⟩ := ih (i+1) acc' h
      refine ⟨by omega,?_⟩
      rwa [show f.index-i = f.index-(i+1)+1 by omega,List.getElem?_cons_succ]
    rw [runGroups] at h
    split at h
    · cases h
      simp
    · exact hnext _ h
    · exact hnext _ h

lemma groupPass_group
    (h : (groupPass req sur used strict w).2 = some f) : req.getUserAutoGroup[f.index]? = some f.group := by
  obtain ⟨hle,hget⟩ := runGroups_group _ _ _ h
  rwa [List.getElem?_drop,Nat.add_sub_cancel' hle] at hget

lemma walkAutoGroups_group
    (h : (walkAutoGroups req sur used w).2 = some f) : req.getUserAutoGroup[f.index]? = some f.group := by
  unfold walkAutoGroups at h
  split at h
  · exact groupPass_group h
  · split at h
    · next heq =>
      have hstr : (groupPass req sur used true w).2 = some f := by
        rw [heq]
        exact h
      exact groupPass_group hstr
    · exact groupPass_group h

lemma Misses.answer_ne (misses : Misses) (ch : Channel) : misses.answer ≠ .ok (some ch) := by
  unfold Misses.answer
  repeat' split
  all_goals simp

theorem result_unpinned (h : pinned req sur w.retry = none) :
    (cacheGetRandomSatisfiedChannel req sur used w).result = .ok (some ch) ↔
      (req.tokenGroup = "auto" ∧ req.autoGroupsSetting ≠ [] ∧
        ∃ f, (walkAutoGroups req sur used w).2 = some f ∧ f.channel = ch) ∨
      req.tokenGroup ≠ "auto" ∧
        selectChannelWhere req sur req.tokenGroup w.retry used (sur.draw false 0) = .ok (some ch) := by
  simp only [cacheGetRandomSatisfiedChannel,h]
  split
  · next hauto =>
    split
    · next hset => simp [hset,hauto]
    · next hset =>
      split
      · next heq => simp [heq,hauto,hset]
      · next heq => simp [heq,hauto,Misses.answer_ne]
  · next hplain => simp [hplain]

lemma selectedGroup_of_result (hauto : req.tokenGroup = "auto") (hpin : sur.binding = none)
    (h : (cacheGetRandomSatisfiedChannel req sur used w).result = .ok (some channel)) :
    ∃ i, selectedGroup req sur used w = some i ∧
      req.getUserAutoGroup[i]? = some (cacheGetRandomSatisfiedChannel req sur used w).selectGroup := by
  have hnone : pinned req sur w.retry = none := by simp [pinned,lookupAffinityChannel,hpin]
  obtain ⟨_,hsetting,f,hf,_⟩ | ⟨hplain,_⟩ := (result_unpinned hnone).mp h
  · refine ⟨f.index,by simp [selectedGroup,Walks,hnone,hauto,hsetting,hf],?_⟩
    simp only [walkAutoGroups_group hf,cacheGetRandomSatisfiedChannel,hnone,if_pos hauto,if_neg hsetting]
    split <;> simp_all
  · exact absurd hauto hplain

end LurusHub.ChannelSelect
