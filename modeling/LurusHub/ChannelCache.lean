import LurusHub.KeyedTable
import LurusHub.WeightedDraw
import Mathlib.Algebra.BigOperators.Ring.List
import Mathlib.Algebra.Order.BigOperators.Group.List
import Mathlib.Algebra.Order.Group.Nat
import Mathlib.Data.List.GetD

/-! The in-memory routing table. A channel's status lives in the cached channel; selection reads an
index from group and model to channel ids, which a rebuild makes and which only shrinks between
rebuilds. Tenant filter and predicate lead to one priority tier, drawn from by weight. -/
namespace LurusHub.ChannelCache
open List WeightedDraw

inductive ChannelStatus
  | unknown | enabled | manuallyDisabled | autoDisabled
  deriving DecidableEq

inductive MultiKeyMode
  | random | polling | weighted | other
  deriving DecidableEq

structure ChannelInfo where
  isMultiKey : Bool := false
  multiKeySize : ℤ := 0
  multiKeyStatusList : KeyedTable (ℕ × ChannelStatus) ℕ Prod.fst := .empty
  multiKeyPollingIndex : ℤ := 0
  multiKeyMode : MultiKeyMode := .other
  multiKeyCooldownUntil : KeyedTable (ℕ × ℤ) ℕ Prod.fst := .empty
  multiKeyWeight : KeyedTable (ℕ × ℤ) ℕ Prod.fst := .empty
  deriving DecidableEq

structure Channel where
  id : ℤ
  tenantId : String := "default"
  keys : List String := []
  status : ChannelStatus := .enabled
  weight : Option UInt64 := none
  (models group : List String)
  priority : Option ℤ := none
  channelInfo : ChannelInfo := {}
  deriving DecidableEq

def Channel.getPriority (channel : Channel) : ℤ := channel.priority.getD 0
def Channel.getWeight (channel : Channel) : Int64 := (channel.weight.getD 0).toInt64

abbrev Channels := KeyedTable Channel ℤ Channel.id

/-- `autoDisabledPairs` of the model prober: the channel is paused for the model. -/
abbrev Paused := ℤ → String → Bool

structure Cache where
  group2model2channels : String → String → List ℤ
  channelsIDM : Channels

/-- One entry for every pair of the group and the model in the channel's lists. -/
def entries (paused : Paused) (group model : String) (channel : Channel) : List ℤ :=
  channel.group.flatMap fun g => channel.models.flatMap fun m =>
    if g = group ∧ m = model ∧ paused channel.id m = false then [channel.id] else []

def priorityOf (channels : Channels) (id : ℤ) : ℤ := ((channels.get? id).map Channel.getPriority).getD 0

def rebuildChannelCache (channels : Channels) (paused : Paused) : Cache where
  group2model2channels group model :=
    ((channels.rows.filter fun c => c.status = .enabled).flatMap (entries paused group model)).insertionSort
      fun a b => priorityOf channels b ≤ priorityOf channels a
  channelsIDM := channels

/-! Names of models. -/

def hasStart (name start : String) : Bool := start.toList.isPrefixOf name.toList
def contains (name part : String) : Bool := decide (part.toList <:+: name.toList)

def handleThinkingBudgetModel (name start wildcard : String) : String :=
  if hasStart name start && contains name "-thinking-" then wildcard else name

def formatMatchingModelName (name : String) : String :=
  let name :=
    if hasStart name "gemini-2.5-flash-lite" then
      handleThinkingBudgetModel name "gemini-2.5-flash-lite" "gemini-2.5-flash-lite-thinking-*"
    else if hasStart name "gemini-2.5-flash" then
      handleThinkingBudgetModel name "gemini-2.5-flash" "gemini-2.5-flash-thinking-*"
    else if hasStart name "gemini-2.5-pro" then
      handleThinkingBudgetModel name "gemini-2.5-pro" "gemini-2.5-pro-thinking-*"
    else name
  let name := if hasStart name "gpt-4-gizmo" then "gpt-4-gizmo-*" else name
  if hasStart name "gpt-4o-gizmo" then "gpt-4o-gizmo-*" else name

/-! Selection. -/

/-- The exact name first; the normalised one only where no channel at all lists the exact name. -/
def Cache.listed (cache : Cache) (group model : String) : List ℤ :=
  let channels := cache.group2model2channels group model
  if channels = [] then cache.group2model2channels group (formatMatchingModelName model) else channels

/-- Platform-shared, or the tenant's own. -/
def Serves (tenantID : String) (channel : Channel) : Bool :=
  channel.tenantId = "" || channel.tenantId = "default" || channel.tenantId = tenantID

/-- An id without a cached channel is kept. -/
def keepIds (cache : Cache) (pred : Channel → Bool) (ids : List ℤ) : List ℤ :=
  ids.filter fun id => (cache.channelsIDM.get? id).all pred

def filterChannelsForTenant (cache : Cache) (ids : List ℤ) (tenantID : String) : List ℤ :=
  if tenantID = "" then ids else keepIds cache (Serves tenantID) ids

def filterChannelsWhere (cache : Cache) (ids : List ℤ) (pred : Channel → Bool) : List ℤ := keepIds cache pred ids

inductive SelectError
  | noChannelSatisfiesPredicate
  | databaseConsistency (channelId : ℤ)
  | noChannelFound (priority : ℤ)
  | channelNotFound
  | intnPanic
  deriving DecidableEq

def resolve (cache : Cache) : List ℤ → Except SelectError (List Channel)
  | [] => .ok []
  | id::ids =>
    match cache.channelsIDM.get? id,resolve cache ids with
    | some c,.ok cs => .ok (c::cs)
    | some _,.error e => .error e
    | none,_ => .error (.databaseConsistency id)

/-- The scaled weight of a channel that has a score; `none` is a channel without one. -/
abbrev Scores := ℤ → Option (Int64 → Int64)

/-- A scored channel has a weight of 1 at least. -/
def weightOf (scores : Scores) (c : Channel) : Int64 :=
  match scores c.id with
  | none => c.getWeight
  | some scale => if scale c.getWeight < 1 then 1 else scale c.getWeight

/-- `none` stands for weights that are left as they are. -/
def adjustWeights (scores : Scores) (channels : List Channel) : Option (List Int64) :=
  if channels.any fun c => (scores c.id).isSome then some (channels.map (weightOf scores)) else none

def sortedUniquePriorities (channels : List Channel) : List ℤ :=
  ((channels.map Channel.getPriority).dedup).insertionSort (· ≥ ·)

def targetPriority (channels : List Channel) (retry : ℕ) : ℤ :=
  let priorities := sortedUniquePriorities channels
  priorities.getD (min retry (priorities.length-1)) 0

def tier (channels : List Channel) (retry : ℕ) : List Channel :=
  channels.filter fun c => c.getPriority = targetPriority channels retry

structure Smoothing (α : Type) where
  (totalWeight smoothingFactor smoothingAdjustment : α)

def Smoothing.apply {α : Type} [Mul α] [Add α] (s : Smoothing α) (w : α) : α :=
  w*s.smoothingFactor+s.smoothingAdjustment

/-- Weights that are all 0 count 100 each; weights whose mean is below 10 are lifted by a factor. -/
def smoothing (weights : List Int64) : Smoothing Int64 :=
  let sumWeight := weights.foldl (· + ·) 0
  if sumWeight = 0 then ⟨.ofNat (weights.length*100),1,100⟩
  else if sumWeight.toInt.tdiv weights.length < 10 then ⟨sumWeight*100,100,0⟩
  else ⟨sumWeight,1,0⟩

/-- The first channel whose weight takes the random number below zero. -/
def walk : List (Channel × Int64) → Int64 → Option Channel
  | [],_ => none
  | (c,w)::items,randomWeight => if randomWeight-w < 0 then some c else walk items (randomWeight-w)

/-- `draw` is the random number before it is brought below the total weight; there is none below a total that is
not positive. -/
def drawFrom (scores : Scores) (channels : List Channel) (retry draw : ℕ) : Except SelectError (Option Channel) :=
  let targetChannels := tier channels retry
  if targetChannels = [] then .error (.noChannelFound (targetPriority channels retry))
  else
    let weights := (adjustWeights scores targetChannels).getD (targetChannels.map Channel.getWeight)
    let total := (smoothing weights).totalWeight
    if total ≤ 0 then .error .intnPanic
    else
      match walk (targetChannels.zip (weights.map (smoothing weights).apply)) (.ofNat (draw%total.toInt.toNat)) with
      | some c => .ok (some c)
      | none => .error .channelNotFound

/-- A channel that is alone is taken as it is. -/
def choose (scores : Scores) (channels : List Channel) (retry draw : ℕ) : Except SelectError (Option Channel) :=
  match channels with
  | [c] => .ok (some c)
  | _ => drawFrom scores channels retry draw

def getRandomSatisfiedChannelWhere (cache : Cache) (scores : Scores) (tenantID group model : String) (retry : ℕ)
    (pred : Option (Channel → Bool)) (draw : ℕ) : Except SelectError (Option Channel) :=
  let channels := filterChannelsForTenant cache (cache.listed group model) tenantID
  if channels = [] then .ok none
  else
    let accepted := (pred.map (filterChannelsWhere cache channels)).getD channels
    if accepted = [] then .error .noChannelSatisfiesPredicate
    else (resolve cache accepted).bind fun cs => choose scores cs retry draw

def getSatisfiedChannelByID (cache : Cache) (group model : String) (channelId : ℤ) : Option Channel :=
  if channelId ≤ 0 || group = "" || model = "" then none
  else if channelId ∈ cache.listed group model then cache.channelsIDM.get? channelId
  else none

/-! The draw in exact numbers. -/

def number (w : Int64) : ℕ := w.toUInt64.toNat

def exactSmoothing (weights : List ℕ) : Smoothing ℕ :=
  if weights.sum = 0 then ⟨weights.length*100,1,100⟩
  else if weights.sum/weights.length < 10 then ⟨weights.sum*100,100,0⟩
  else ⟨weights.sum,1,0⟩

def effectiveWeight (scores : Scores) (targetChannels : List Channel) (c : Channel) : ℕ :=
  (exactSmoothing (targetChannels.map fun d => number (weightOf scores d))).apply (number (weightOf scores c))

def exactItems (scores : Scores) (targetChannels : List Channel) : List (Channel × ℕ) :=
  targetChannels.map fun c => (c,effectiveWeight scores targetChannels c)

/-- The effective weights add up to a number below 2^63. -/
def Fits (scores : Scores) (targetChannels : List Channel) : Prop := total (exactItems scores targetChannels) < 2^63
  deriving Decidable

/-- So do the weights of all channels, each with the most a tier can make of it. -/
def Roomy (scores : Scores) (channels : List Channel) : Prop :=
  (channels.map fun c => number (weightOf scores c)*100+100).sum < 2^63
  deriving Decidable

lemma ofNat_number (w : Int64) : Int64.ofNat (number w) = w := by
  rw [number,← UInt64.toInt64_ofNat',UInt64.ofNat_toNat]
  rfl

lemma adjustWeights_getD :
    (adjustWeights scores chans).getD (chans.map Channel.getWeight) = chans.map (weightOf scores) := by
  unfold adjustWeights
  split
  · rfl
  · next h =>
    simp only [any_eq_true,not_exists,not_and,Bool.not_eq_true,Option.isSome_eq_false_iff,
      Option.isNone_iff_eq_none] at h
    refine map_congr_left fun c hc => ?_
    simp [weightOf,h c hc]

lemma foldl_add_ofNat (weights : List ℕ) (n : ℕ) :
    (weights.map Int64.ofNat).foldl (· + ·) (.ofNat n) = .ofNat (n+weights.sum) := by
  induction weights generalizing n with
  | nil => simp
  | cons w weights ih => rw [map_cons,foldl_cons,← Int64.ofNat_add,ih,sum_cons,Nat.add_assoc]

lemma smoothing_ofNat {weights : List ℕ} (h : weights.sum < 2^63) :
    smoothing (weights.map Int64.ofNat) = ⟨.ofNat (exactSmoothing weights).totalWeight,
      .ofNat (exactSmoothing weights).smoothingFactor,.ofNat (exactSmoothing weights).smoothingAdjustment⟩ := by
  have hsum := foldl_add_ofNat weights 0
  rw [Nat.zero_add] at hsum
  have hint : (Int64.ofNat weights.sum).toInt = weights.sum := Int64.toInt_ofNat_of_lt h
  have hzero : Int64.ofNat weights.sum = 0 ↔ weights.sum = 0 := by
    rw [← Int64.toInt_inj,hint,Int64.toInt_zero]
    omega
  have hmean : (Int64.ofNat weights.sum).toInt.tdiv weights.length < 10 ↔ weights.sum/weights.length < 10 := by
    rw [hint,Int.tdiv_eq_ediv_of_nonneg (Int.natCast_nonneg _)]
    omega
  have hfactor : Int64.ofNat (weights.sum*100) = Int64.ofNat weights.sum*100 := Int64.ofNat_mul _ _
  simp only [smoothing,exactSmoothing]
  rw [show (0 : Int64) = .ofNat 0 from rfl,hsum,length_map]
  simp only [show Int64.ofNat 0 = 0 from rfl,hzero,hmean]
  split_ifs
  · rfl
  · rw [hfactor]
    rfl
  · rfl

lemma walk_ofNat {items : List (Channel × ℕ)} (hitems : ∀ x ∈ items, x.2 < 2^63) (hr : r < 2^63) :
    walk (items.map fun x => (x.1,.ofNat x.2)) (.ofNat r) = pick items r := by
  induction items generalizing r with
  | nil => rfl
  | cons x items ih =>
    obtain ⟨c,w⟩ := x
    rw [forall_mem_cons] at hitems
    have hdiff : (Int64.ofNat r-Int64.ofNat w).toInt = (r : ℤ)-w := by
      rw [Int64.toInt_sub,Int64.toInt_ofNat_of_lt hr,Int64.toInt_ofNat_of_lt hitems.1]
      exact Int.bmod_eq_of_le (by omega) (by omega)
    have hneg : Int64.ofNat r-Int64.ofNat w < 0 ↔ r < w := by
      rw [Int64.lt_iff_toInt_lt,hdiff,Int64.toInt_zero]
      omega
    rw [map_cons,walk,pick]
    simp only [hneg]
    split
    · rfl
    · rw [← Int64.ofNat_sub _ _ (by omega)]
      exact ih hitems.2 (by omega)

lemma mem_of_walk {items : List (Channel × Int64)} {r : Int64} (h : walk items r = some c) : ∃ w, (c,w) ∈ items := by
  induction items generalizing r with
  | nil => cases h
  | cons x items ih =>
    obtain ⟨d,w⟩ := x
    rw [walk] at h
    split at h
    · cases h
      exact ⟨w,mem_cons_self⟩
    · obtain ⟨w',hmem⟩ := ih h
      exact ⟨w',mem_cons_of_mem _ hmem⟩

/-! Which channels can be drawn. -/

lemma targetPriority_mem (h : channels ≠ []) :
    targetPriority channels retry ∈ channels.map Channel.getPriority := by
  have hlen : 0 < (sortedUniquePriorities channels).length := by
    obtain ⟨c,hc⟩ := exists_mem_of_ne_nil channels h
    have hmem : c.getPriority ∈ sortedUniquePriorities channels := by
      simpa [sortedUniquePriorities] using ⟨c,hc,rfl⟩
    exact length_pos_of_mem hmem
  have hlt : min retry ((sortedUniquePriorities channels).length-1) < (sortedUniquePriorities channels).length := by
    omega
  have hmem : targetPriority channels retry ∈ sortedUniquePriorities channels := by
    simp only [targetPriority,getD_eq_getElem _ _ hlt]
    exact getElem_mem _
  simpa [sortedUniquePriorities] using hmem

lemma tier_ne_nil (h : chans ≠ []) (retry : ℕ) : tier chans retry ≠ [] := by
  obtain ⟨c,hc,hp⟩ := mem_map.mp (targetPriority_mem h)
  exact ne_nil_of_mem (mem_filter.mpr ⟨hc,by simpa using hp⟩)

lemma sum_smoothed (weights : List ℕ) :
    (weights.map (exactSmoothing weights).apply).sum = (exactSmoothing weights).totalWeight := by
  unfold exactSmoothing
  split_ifs with hzero
  · have hall : ∀ w ∈ weights, w = 0 := List.sum_eq_zero_iff_forall_eq_nat.mp hzero
    have hmap : weights.map (⟨weights.length*100,1,100⟩ : Smoothing ℕ).apply = weights.map fun _ => 100 :=
      List.map_congr_left fun w hw => by rw [hall w hw]; rfl
    rw [hmap]
    simp
  · change (weights.map fun w => w*100+0).sum = weights.sum*100
    simpa using sum_map_mul_right weights id 100
  · change (weights.map fun w => w*1+0).sum = weights.sum
    simp

lemma smoothed_pos (weights : List ℕ) (w : ℕ) :
    0 < (exactSmoothing weights).apply w ↔ 0 < w ∨ ∀ v ∈ weights, v = 0 := by
  rw [← List.sum_eq_zero_iff_forall_eq_nat]
  unfold exactSmoothing
  split_ifs with hzero <;> simp [Smoothing.apply,hzero]

lemma effectiveWeight_pos (scores : Scores) (targetChannels : List Channel) (c : Channel) :
    0 < effectiveWeight scores targetChannels c ↔
    weightOf scores c ≠ 0 ∨ ∀ d ∈ targetChannels, weightOf scores d = 0 := by
  have hzero : ∀ w, number w = 0 ↔ w = 0 := by
    intro w
    refine ⟨fun h => ?_,fun h => by rw [h]; rfl⟩
    rw [← ofNat_number w,h]
    rfl
  rw [effectiveWeight,smoothed_pos,forall_mem_map,Nat.pos_iff_ne_zero]
  simp only [ne_eq,hzero]

lemma total_exactItems (scores : Scores) (targetChannels : List Channel) : total (exactItems scores targetChannels) =
    (exactSmoothing (targetChannels.map fun c => number (weightOf scores c))).totalWeight := by
  rw [← sum_smoothed,total,exactItems,map_map,map_map]
  rfl

lemma total_exactItems_pos (scores : Scores) (h : targetChannels ≠ []) :
    0 < total (exactItems scores targetChannels) := by
  have hsome : ∃ c ∈ targetChannels, 0 < effectiveWeight scores targetChannels c := by
    simp only [effectiveWeight_pos]
    by_cases hzero : ∀ d ∈ targetChannels, weightOf scores d = 0
    · exact (exists_mem_of_ne_nil _ h).imp fun c hc => ⟨hc,.inr hzero⟩
    · obtain ⟨d,hd,hw⟩ : ∃ d ∈ targetChannels, weightOf scores d ≠ 0 := by simpa using hzero
      exact ⟨d,hd,.inl hw⟩
  obtain ⟨c,hc,hw⟩ := hsome
  obtain ⟨r,hr,_⟩ := exists_pick (show (c,_) ∈ exactItems scores targetChannels from mem_map_of_mem hc) hw
  exact Nat.zero_lt_of_lt hr

lemma Roomy.sublist (h : Roomy scores chans) (hsub : chans'.Sublist chans) : Roomy scores chans' :=
  ((hsub.map _).sum_le_sum fun _ _ => Nat.zero_le _).trans_lt h

lemma Roomy.fits (h : Roomy scores chans) (hsub : targetChannels.Sublist chans) : Fits scores targetChannels := by
  have hmost : ∀ c ∈ targetChannels, effectiveWeight scores targetChannels c ≤ number (weightOf scores c)*100+100 := by
    intro c _
    unfold effectiveWeight exactSmoothing Smoothing.apply
    split_ifs <;> dsimp only <;> omega
  rw [Fits,total,exactItems,map_map]
  exact (sum_le_sum hmost).trans_lt (h.sublist hsub)

lemma Roomy.tier (h : Roomy scores chans) (retry : ℕ) : Fits scores (tier chans retry) := h.fits filter_sublist

lemma smoothing_tier (hfit : Fits scores targetChannels) : smoothing (targetChannels.map (weightOf scores)) =
    ⟨.ofNat (total (exactItems scores targetChannels)),
      .ofNat (exactSmoothing (targetChannels.map fun c => number (weightOf scores c))).smoothingFactor,
      .ofNat (exactSmoothing (targetChannels.map fun c => number (weightOf scores c))).smoothingAdjustment⟩ := by
  set weights := targetChannels.map fun c => number (weightOf scores c) with hweights
  have hwords : targetChannels.map (weightOf scores) = weights.map Int64.ofNat := by
    rw [hweights,map_map]
    exact map_congr_left fun c _ => (ofNat_number _).symm
  have hle : weights.sum ≤ (exactSmoothing weights).totalWeight := by
    unfold exactSmoothing
    split_ifs <;> dsimp only <;> omega
  rw [Fits,total_exactItems] at hfit
  rw [hwords,smoothing_ofNat (hle.trans_lt hfit),total_exactItems]

theorem drawFrom_eq (h : chans ≠ []) (hfit : Fits scores (tier chans retry)) (draw : ℕ) :
    drawFrom scores chans retry draw =
      match pick (exactItems scores (tier chans retry)) (draw%total (exactItems scores (tier chans retry))) with
      | some c => .ok (some c)
      | none => .error .channelNotFound := by
  set items := exactItems scores (tier chans retry) with hitems
  have hlt : total items < 2^63 := hfit
  have hpos : 0 < total items := total_exactItems_pos scores (tier_ne_nil h retry)
  have hint : (Int64.ofNat (total items)).toInt = total items := Int64.toInt_ofNat_of_lt hlt
  have hnot : ¬Int64.ofNat (total items) ≤ 0 := by
    rw [Int64.le_iff_toInt_le,hint,Int64.toInt_zero]
    omega
  have hzip : (tier chans retry).zip (((tier chans retry).map (weightOf scores)).map
      (smoothing ((tier chans retry).map (weightOf scores))).apply) = items.map fun x => (x.1,.ofNat x.2) := by
    have hmap := zip_map' (f:=id)
      (g:=(smoothing ((tier chans retry).map (weightOf scores))).apply ∘ weightOf scores) (l:=tier chans retry)
    rw [map_id,← map_map] at hmap
    rw [hmap,hitems,exactItems,map_map,smoothing_tier hfit]
    refine map_congr_left fun c _ => Prod.ext rfl ?_
    simp only [Function.comp,Smoothing.apply,effectiveWeight,Int64.ofNat_add,Int64.ofNat_mul,ofNat_number]
  have hbound : ∀ x ∈ items, x.2 < 2^63 := fun x hx => (le_sum_of_mem (mem_map_of_mem hx)).trans_lt hlt
  simp only [drawFrom,if_neg (tier_ne_nil h retry),adjustWeights_getD]
  rw [hzip,smoothing_tier hfit]
  simp only [← hitems,hint,if_neg hnot,Int.toNat_natCast]
  rw [walk_ofNat hbound ((Nat.mod_lt _ hpos).trans hlt)]

lemma mem_of_drawFrom (h : drawFrom scores chans retry draw = .ok (some c)) : c ∈ tier chans retry := by
  simp only [drawFrom] at h
  split_ifs at h
  split at h
  · next hwalk =>
    cases h
    obtain ⟨w,hmem⟩ := mem_of_walk hwalk
    exact (of_mem_zip hmem).1
  · cases h

lemma drawFrom_ne_none : drawFrom scores chans retry draw ≠ .ok none := by
  simp only [drawFrom]
  split_ifs
  · simp
  · simp
  · split <;> simp

theorem drawFrom_iff (h : chans ≠ []) (hfit : Fits scores (tier chans retry))
    (a : Except SelectError (Option Channel)) :
    (∃ draw, drawFrom scores chans retry draw = a) ↔ ∃ c ∈ tier chans retry, a = .ok (some c) ∧
      (weightOf scores c ≠ 0 ∨ ∀ d ∈ tier chans retry, weightOf scores d = 0) := by
  have heq := drawFrom_eq h hfit
  have htotal := total_exactItems_pos scores (tier_ne_nil h retry)
  constructor
  · rintro ⟨draw,rfl⟩
    obtain ⟨c,w,hpick,hmem,hw⟩ := (exists_draw_iff htotal _).mp ⟨draw,rfl⟩
    obtain ⟨d,hd,hdw⟩ := mem_map.mp hmem
    obtain ⟨rfl,rfl⟩ := Prod.mk.inj hdw
    exact ⟨d,hd,by rw [heq,hpick],(effectiveWeight_pos _ _ _).mp hw⟩
  · rintro ⟨c,hc,rfl,hw⟩
    obtain ⟨draw,hdraw⟩ := (exists_draw_iff htotal (some c)).mpr
      ⟨c,_,rfl,mem_map_of_mem hc,(effectiveWeight_pos _ _ _).mpr hw⟩
    exact ⟨draw,by rw [heq,hdraw]⟩

/-! What a rebuild puts into the index. -/

def Offers (paused : Paused) (group model : String) (c : Channel) : Prop :=
  c.status = .enabled ∧ group ∈ c.group ∧ model ∈ c.models ∧ paused c.id model = false
  deriving Decidable

lemma eq_of_mem_entries {id : ℤ} (h : id ∈ entries paused group model c) : id = c.id := by
  obtain ⟨g,_,hg⟩ := mem_flatMap.mp h
  obtain ⟨m,_,hm⟩ := mem_flatMap.mp hg
  split at hm
  · exact mem_singleton.mp hm
  · cases hm

lemma mem_entries :
    c.id ∈ entries paused group model c ↔ group ∈ c.group ∧ model ∈ c.models ∧ paused c.id model = false := by
  simp only [entries,mem_flatMap]
  constructor
  · rintro ⟨g,hg,m,hm,h⟩
    split at h
    · next hcond =>
      obtain ⟨rfl,rfl,hp⟩ := hcond
      exact ⟨hg,hm,hp⟩
    · cases h
  · rintro ⟨hg,hm,hp⟩
    exact ⟨group,hg,model,hm,by simp [hp]⟩

def copies (channels : Channels) (paused : Paused) (group model : String) : List Channel :=
  (channels.rows.filter fun c => c.status = .enabled).flatMap fun c => (entries paused group model c).map fun _ => c

def indexed (channels : Channels) (paused : Paused) (group model : String) : List Channel :=
  (copies channels paused group model).insertionSort fun a b => b.getPriority ≤ a.getPriority

lemma mem_copies {chans : Channels} :
    c ∈ copies chans paused group model ↔ c ∈ chans.rows ∧ Offers paused group model c := by
  simp only [copies,mem_flatMap,mem_filter,mem_map,decide_eq_true_eq]
  constructor
  · rintro ⟨d,⟨hd,hs⟩,id,hid,rfl⟩
    rw [eq_of_mem_entries hid] at hid
    exact ⟨hd,hs,mem_entries.mp hid⟩
  · rintro ⟨hc,hs,h⟩
    exact ⟨c,⟨hc,hs⟩,c.id,mem_entries.mpr h,rfl⟩

lemma mem_indexed {chans : Channels} :
    c ∈ indexed chans paused group model ↔ c ∈ chans.rows ∧ Offers paused group model c := by
  rw [indexed,mem_insertionSort,mem_copies]

lemma index_rebuild (chans : Channels) (paused : Paused) (group model : String) :
    (rebuildChannelCache chans paused).group2model2channels group model =
      (indexed chans paused group model).map Channel.id := by
  have hids : (chans.rows.filter fun c => c.status = .enabled).flatMap (entries paused group model) =
      (copies chans paused group model).map Channel.id := by
    rw [copies,map_flatMap]
    refine flatMap_congr fun c _ => ?_
    rw [map_map]
    exact (map_id _).symm.trans (map_congr_left fun id hid => eq_of_mem_entries hid)
  have hpriority : ∀ c ∈ copies chans paused group model, priorityOf chans c.id = c.getPriority := by
    intro c hc
    simp [priorityOf,KeyedTable.get?_of_mem (mem_copies.mp hc).1]
  simp only [rebuildChannelCache,hids]
  refine (map_insertionSort _ _ _ _ fun a ha b hb => ?_).symm
  rw [hpriority a ha,hpriority b hb]

end LurusHub.ChannelCache
