import LurusHub.AbilityDraw
import LurusHub.ChannelIsolation

/-! Routing with the memory cache and without it. Where the ability rows are those of the channels,
the rows of a request stand for the cached candidates. The branches differ in the model's name,
which only the cache normalises, and in a retry that finds no row. -/
namespace LurusHub.AbilityRouting
open ChannelCache WeightedDraw KeyedTable List

inductive Verdict
  | noCandidate
  | onlyRejected
  | draws (targets : List Channel)
  | fails
  deriving DecidableEq

def Verdict.Answers {ε : Type} (rejected : ε) : Verdict → Except ε (Option Channel) → Prop
  | .noCandidate,a => a = .ok none
  | .onlyRejected,a => a = .error rejected
  | .draws targets,a => ∃ c ∈ targets, a = .ok (some c)
  | .fails,a => ∃ e, a = .error e

/-- The same kind, and for a draw the same channels, all of one priority. -/
def Verdict.Agree : Verdict → Verdict → Prop
  | .noCandidate,.noCandidate => True
  | .onlyRejected,.onlyRejected => True
  | .draws cs,.draws ds => (∀ c, c ∈ cs ↔ c ∈ ds) ∧ ∃ p, ∀ c ∈ cs, c.getPriority = p
  | _,_ => False

def cachedVerdict (cache : Cache) (tenantID group model : String) (retry : ℕ)
    (pred : Option (Channel → Bool)) : Verdict :=
  let channels := filterChannelsForTenant cache (cache.listed group model) tenantID
  if channels = [] then .noCandidate
  else
    let accepted := (pred.map (filterChannelsWhere cache channels)).getD channels
    if accepted = [] then .onlyRejected
    else
      match resolve cache accepted with
      | .ok cs => .draws (tier cs retry)
      | .error _ => .fails

def channelsOf (db : Database) (rows : List Ability) : List Channel :=
  rows.filterMap fun a => db.channels.get? a.channelId

def verdictForTenant (db : Database) (tenantID group model : String) (retry : ℕ) : Verdict :=
  match getChannelQuery db group model retry tenantID with
  | .ok rows => if orderByWeight rows = [] then .noCandidate else .draws (channelsOf db (orderByWeight rows))
  | .error _ => .fails

def verdictWhere (db : Database) (tenantID group model : String) (retry : ℕ) (pred : Channel → Bool) : Verdict :=
  if orderByWeight (baseRows db group model tenantID) = [] then .noCandidate
  else if accepted db pred (orderByWeight (baseRows db group model tenantID)) = [] then .onlyRejected
  else .draws (channelsOf db (candidatesWhere db group model retry tenantID pred))

def databaseVerdict (db : Database) (tenantID group model : String) (retry : ℕ)
    (pred : Option (Channel → Bool)) : Verdict :=
  match pred with
  | none => verdictForTenant db tenantID group model retry
  | some pred => verdictWhere db tenantID group model retry pred

/-! The tier of a retry. -/

def level (priorities : List ℤ) (retry : ℕ) : ℤ :=
  let tiers := priorities.dedup.insertionSort (· ≥ ·)
  tiers.getD (min retry (tiers.length-1)) 0

lemma level_congr (h : ∀ p, p ∈ l ↔ p ∈ l') : level l retry = level l' retry := by
  rw [level,level,sort_dedup_congr h]

lemma tiers_ne_nil {l : List ℤ} (h : l ≠ []) : l.dedup.insertionSort (· ≥ ·) ≠ [] := by
  obtain ⟨p,hp⟩ := exists_mem_of_ne_nil l h
  exact ne_nil_of_mem ((mem_insertionSort _).mpr (mem_dedup.mpr hp))

lemma level_mem (h : l ≠ []) : level l retry ∈ l := by
  have hlen := length_pos_of_ne_nil (tiers_ne_nil h)
  have hlt : min retry ((l.dedup.insertionSort (· ≥ ·)).length-1) < (l.dedup.insertionSort (· ≥ ·)).length := by omega
  have hmem : level l retry ∈ l.dedup.insertionSort (· ≥ ·) := by
    simp only [level,getD_eq_getElem _ _ hlt]
    exact getElem_mem _
  exact mem_dedup.mp ((mem_insertionSort _).mp hmem)

lemma le_level_zero (hp : p ∈ l) : p ≤ level l 0 := by
  have hmem : p ∈ l.dedup.insertionSort (· ≥ ·) := (mem_insertionSort _).mpr (mem_dedup.mpr hp)
  have hsorted := pairwise_insertionSort (fun a b : ℤ => a ≥ b) l.dedup
  unfold level
  generalize l.dedup.insertionSort (· ≥ ·) = tiers at hmem hsorted
  cases tiers with
  | nil => cases hmem
  | cons t ts =>
    rcases mem_cons.mp hmem with rfl | hts
    · exact le_refl _
    · exact rel_of_pairwise_cons hsorted hts

lemma tierRows_eq (rows : List Ability) :
    tierRows rows retry = rows.filter fun a => abilityPriority a = level (rows.map abilityPriority) retry := rfl

lemma tier_eq :
    tier cs retry = cs.filter fun c => c.getPriority = level (cs.map Channel.getPriority) retry := rfl

lemma tierRows_ne_nil {rows : List Ability} (h : rows ≠ []) (retry : ℕ) : tierRows rows retry ≠ [] := by
  obtain ⟨a,ha,hp⟩ := mem_map.mp (level_mem (map_eq_nil_iff.not.mpr h : rows.map abilityPriority ≠ []))
  rw [tierRows_eq]
  exact ne_nil_of_mem (mem_filter.mpr ⟨ha,decide_eq_true hp⟩)

/-! The calls answer with their verdicts. -/

lemma choose_mem (h : cs ≠ []) (retry draw : ℕ) (hfit : Fits scores (tier cs retry)) :
    ∃ c ∈ tier cs retry, choose scores cs retry draw = .ok (some c) := by
  by_cases hone : ∃ c, cs = [c]
  · obtain ⟨c,rfl⟩ := hone
    obtain ⟨d,hd⟩ := exists_mem_of_ne_nil _ (tier_ne_nil h retry)
    obtain rfl := mem_singleton.mp (mem_filter.mp hd).1
    exact ⟨d,hd,rfl⟩
  · rw [choose_of_not_single hone]
    obtain ⟨c,hc,heq,-⟩ := (drawFrom_iff h hfit _).mp ⟨draw,rfl⟩
    exact ⟨c,hc,heq⟩

lemma resolve_ne_nil (h : resolve cache ids = .ok cs) (hne : ids ≠ []) : cs ≠ [] := by
  obtain ⟨id,ids,rfl⟩ := exists_cons_of_ne_nil hne
  rw [resolve] at h
  split at h
  · cases h
    exact cons_ne_nil _ _
  · cases h
  · cases h

lemma cachedVerdict_answers (draw : ℕ)
    (hfit : ∀ cs, cachedVerdict cache tid group model retry pred = .draws cs → Fits scores cs) :
    (cachedVerdict cache tid group model retry pred).Answers .noChannelSatisfiesPredicate
      (getRandomSatisfiedChannelWhere cache scores tid group model retry pred draw) := by
  simp only [cachedVerdict,getRandomSatisfiedChannelWhere] at hfit ⊢
  split_ifs with hcha haccepted
  · rfl
  · rfl
  · cases hres : resolve cache ((pred.map (filterChannelsWhere cache
        (filterChannelsForTenant cache (cache.listed group model) tid))).getD
        (filterChannelsForTenant cache (cache.listed group model) tid)) with
    | error e => exact ⟨e,rfl⟩
    | ok cs =>
      exact choose_mem (resolve_ne_nil hres haccepted) retry draw (hfit _ (by simp [hcha,haccepted,hres]))

lemma mem_channelsOf {rows : List Ability} :
    c ∈ channelsOf db rows ↔ ∃ a ∈ rows, db.channels.get? a.channelId = some c := mem_filterMap

def InRange (rows : List Ability) (r : ℕ) : Prop := rows ≠ [] → sumOfShares rows < 2^63 ∧ r < sumOfShares rows

lemma verdictWhere_answers (hr : InRange (candidatesWhere db group model retry tid pred) r) :
    (verdictWhere db tid group model retry pred).Answers .noChannelSatisfiesPredicate
      (getChannelForTenantWhere db group model retry tid pred (Int64.ofNat r)) := by
  unfold verdictWhere
  split_ifs with hrows haccepted
  · simp [getChannelForTenantWhere,hrows,Verdict.Answers]
  · simp [getChannelForTenantWhere,hrows,haccepted,Verdict.Answers]
  · have hne : candidatesWhere db group model retry tid pred ≠ [] := tierRows_ne_nil haccepted retry
    obtain ⟨hfits,hlt⟩ := hr hne
    rw [← total_shares] at hfits hlt
    obtain ⟨a,ha,-,hdraw,-⟩ := draws_eq hfits hlt
    obtain ⟨c,hc⟩ := Option.ne_none_iff_exists'.mp (found_candidatesWhere a ha)
    refine ⟨c,mem_channelsOf.mpr ⟨a,ha,hc⟩,?_⟩
    rw [getChannelForTenantWhere_eq hne,weightSumWhere_eq,if_neg (ofNat_pos (total_shares_pos hne) hfits),hdraw,hc]

lemma verdictForTenant_answers
    (hfound : ∀ a ∈ baseRows db group model tid, db.channels.get? a.channelId ≠ none)
    (hr : ∀ rows, getChannelQuery db group model retry tid = .ok rows → InRange (orderByWeight rows) r) :
    (verdictForTenant db tid group model retry).Answers .noChannelSatisfiesPredicate
      (getChannelForTenant db group model retry tid (Int64.ofNat r)) := by
  unfold verdictForTenant
  cases hquery : getChannelQuery db group model retry tid with
  | error e => exact ⟨e,by simp [getChannelForTenant,hquery,Except.bind]⟩
  | ok rows =>
    dsimp only
    split_ifs with hrows
    · simp [getChannelForTenant,hquery,Except.bind,hrows,Verdict.Answers]
    · obtain ⟨hfits,hlt⟩ := hr rows hquery hrows
      rw [← total_shares] at hfits hlt
      obtain ⟨a,ha,-,-,hdraw⟩ := draws_eq hfits hlt
      have hbase := (sublist_getChannelQuery hquery).subset ((mem_insertionSort _).mp ha)
      obtain ⟨c,hc⟩ := Option.ne_none_iff_exists'.mp (hfound a hbase)
      refine ⟨c,mem_channelsOf.mpr ⟨a,ha,hc⟩,?_⟩
      rw [getChannelForTenant_eq hquery hrows (hdraw ▸ hc),weightSumForTenant_eq,
        if_neg (ofNat_pos (total_shares_pos hrows) hfits)]

/-! The query of a tier. -/

/-- No row has a NULL priority. -/
abbrev Ranked (rows : List Ability) : Prop := ∀ a ∈ rows, a.priority = some (abilityPriority a)

lemma maxPriority_eq {rows : List Ability} (hne : rows ≠ []) (hran : Ranked rows) :
    maxPriority rows = some (level (rows.map abilityPriority) 0) := by
  have hvalues : rows.filterMap Ability.priority = rows.map abilityPriority := by
    rw [← filterMap_eq_map]
    exact filterMap_congr hran
  rw [maxPriority,hvalues,max?_eq_some_iff]
  exact ⟨level_mem (map_eq_nil_iff.not.mpr hne),fun _ hp => le_level_zero hp⟩

section
variable (hne : baseRows db group model tenantID ≠ []) (hran : Ranked (baseRows db group model tenantID))
include hne hran

lemma getPriority_eq :
    getPriority db group model retry tenantID =
    .ok (level ((baseRows db group model tenantID).map abilityPriority) retry) := by
  have hvalues : (baseRows db group model tenantID).map Ability.priority =
      ((baseRows db group model tenantID).map abilityPriority).map some := by
    rw [map_map]
    exact map_congr_left hran
  have hscan : ∀ l : List ℤ, (l.map some).mapM id = some l := by
    intro l
    induction l with
    | nil => rfl
    | cons p l ih => simp [ih]
  have htie := tiers_ne_nil (map_eq_nil_iff.not.mpr hne : (baseRows db group model tenantID).map abilityPriority ≠ [])
  unfold getPriority level
  rw [hvalues,dedup_map_of_injective (Option.some_injective ℤ),hscan]
  dsimp only
  rw [if_neg htie]
  split_ifs with hret
  · rw [Nat.min_eq_right (by omega)]
  · rw [Nat.min_eq_left (by omega)]

lemma getChannelQuery_eq :
    getChannelQuery db group model retry tenantID = .ok (tierRows (baseRows db group model tenantID) retry) := by
  unfold getChannelQuery
  rw [tierRows_eq]
  dsimp only
  split_ifs with hret
  · subst hret
    rw [maxPriority_eq hne hran]
    congr 1
    exact filter_congr fun a ha => by simp [hran a ha]
  · rw [getPriority_eq hne hran,Except.map]
    congr 1
    exact filter_congr fun a ha => by simp [hran a ha]

end

lemma getChannelQuery_nil (hnil : baseRows db group model tid = []) :
    getChannelQuery db group model retry tid = if retry = 0 then .ok [] else .error .consistencyViolated := by
  unfold getChannelQuery getPriority
  rw [hnil]
  rfl

/-! Rows that stand for channels. -/

structure StandFor (db : Database) (rows : List Ability) (cs : List Channel) : Prop where
  channel : ∀ a ∈ rows, ∃ c ∈ cs, db.channels.get? a.channelId = some c ∧ a.priority = some c.getPriority
  row : ∀ c ∈ cs, ∃ a ∈ rows, db.channels.get? a.channelId = some c

namespace StandFor
variable {rows : List Ability}

section
variable (h : StandFor db rows cs)
include h

lemma nil_iff : rows = [] ↔ cs = [] := by
  constructor
  · rintro rfl
    refine eq_nil_iff_forall_not_mem.mpr fun c hc => ?_
    obtain ⟨a,ha,-⟩ := h.row c hc
    cases ha
  · rintro rfl
    refine eq_nil_iff_forall_not_mem.mpr fun a ha => ?_
    obtain ⟨c,hc,-⟩ := h.channel a ha
    cases hc

lemma mem_iff : c ∈ channelsOf db rows ↔ c ∈ cs := by
  rw [mem_channelsOf]
  constructor
  · rintro ⟨a,ha,hc⟩
    obtain ⟨d,hd,hfound,-⟩ := h.channel a ha
    obtain rfl := Option.some.inj (hc.symm.trans hfound)
    exact hd
  · exact h.row c

lemma ranked : Ranked rows := by
  intro a ha
  obtain ⟨c,-,-,hp⟩ := h.channel a ha
  simp [abilityPriority,hp]

lemma of_perm (hperm : rows'.Perm rows) : StandFor db rows' cs where
  channel a ha := h.channel a (hperm.mem_iff.mp ha)
  row c hc := (h.row c hc).imp fun _ ha => ⟨hperm.mem_iff.mpr ha.1,ha.2⟩

lemma filter
    (hpq : ∀ a ∈ rows, ∀ c, db.channels.get? a.channelId = some c → a.priority = some c.getPriority → p a = q c) :
    StandFor db (rows.filter p) (cs.filter q) where
  channel a ha := by
    obtain ⟨hmem,hp⟩ := mem_filter.mp ha
    obtain ⟨c,hc,hfound,hpriority⟩ := h.channel a hmem
    exact ⟨c,mem_filter.mpr ⟨hc,hpq a hmem c hfound hpriority ▸ hp⟩,hfound,hpriority⟩
  row c hc := by
    obtain ⟨hmem,hq⟩ := mem_filter.mp hc
    obtain ⟨a,ha,hfound⟩ := h.row c hmem
    obtain ⟨d,-,hd,hpriority⟩ := h.channel a ha
    obtain rfl := Option.some.inj (hfound.symm.trans hd)
    exact ⟨a,mem_filter.mpr ⟨ha,(hpq a ha c hfound hpriority).trans hq⟩,hfound⟩

lemma accepted (pred : Channel → Bool) : StandFor db (AbilityRouting.accepted db pred rows) (cs.filter pred) :=
  h.filter fun a _ c hfound _ => by simp [hfound]

lemma mem_priorities (p : ℤ) : p ∈ rows.map abilityPriority ↔ p ∈ cs.map Channel.getPriority := by
  simp only [mem_map]
  constructor
  · rintro ⟨a,ha,rfl⟩
    obtain ⟨c,hc,-,hp⟩ := h.channel a ha
    exact ⟨c,hc,by simp [abilityPriority,hp]⟩
  · rintro ⟨c,hc,rfl⟩
    obtain ⟨a,ha,hfound⟩ := h.row c hc
    obtain ⟨d,-,hd,hp⟩ := h.channel a ha
    obtain rfl := Option.some.inj (hfound.symm.trans hd)
    exact ⟨a,ha,by simp [abilityPriority,hp]⟩

lemma tiers (retry : ℕ) : StandFor db (tierRows rows retry) (tier cs retry) := by
  rw [tierRows_eq,tier_eq,level_congr h.mem_priorities]
  exact h.filter fun a _ c _ hp => by simp [abilityPriority,hp]

lemma agree (hperm : rows'.Perm (tierRows rows retry)) :
    (Verdict.draws (tier cs retry)).Agree (.draws (channelsOf db rows')) := by
  refine ⟨fun c => ((h.tiers retry).of_perm hperm).mem_iff.symm,targetPriority cs retry,fun c hc => ?_⟩
  exact of_decide_eq_true (mem_filter.mp hc).2

end

end StandFor

/-! Tables in sync. -/

structure InSync (db : Database) (paused : Paused) : Prop where
  listed : ∀ c ∈ db.channels.rows, ∀ group model, Offers paused group model c →
    ∃ a ∈ db.abilities.rows, a.enabled = true ∧ a.group = group ∧ a.model = model ∧ a.channelId = c.id
  offered : ∀ a ∈ db.abilities.rows, a.enabled = true →
    ∃ c ∈ db.channels.rows, c.id = a.channelId ∧ Offers paused a.group a.model c ∧ a.priority = some c.getPriority

lemma abilityTenantScope_eq
    (hc : db.channels.get? a.channelId = some c) : abilityTenantScope db tid a = Shown tid c := by
  rw [Bool.eq_iff_iff]
  simp only [abilityTenantScope,Shown,Serves,hc,Option.any_some,Bool.or_eq_true,decide_eq_true_eq,mem_cons]
  tauto

lemma standFor_baseRows (h : InSync db paused) (tid group model : String) :
    StandFor db (baseRows db group model tid) ((indexed db.channels paused group model).filter (Shown tid)) where
  channel a ha := by
    obtain ⟨hmem,hcond⟩ := mem_filter.mp ha
    simp only [abilityBaseCondition,Bool.and_eq_true,decide_eq_true_eq] at hcond
    obtain ⟨⟨⟨rfl,rfl⟩,henabled⟩,hsco⟩ := hcond
    obtain ⟨c,hc,hid,hoffe,hpriority⟩ := h.offered a hmem henabled
    have hfound := hid ▸ get?_of_mem hc
    rw [abilityTenantScope_eq hfound] at hsco
    exact ⟨c,mem_filter.mpr ⟨mem_indexed.mpr ⟨hc,hoffe⟩,hsco⟩,hfound,hpriority⟩
  row c hc := by
    obtain ⟨hind,hsho⟩ := mem_filter.mp hc
    obtain ⟨hmem,hoffe⟩ := mem_indexed.mp hind
    obtain ⟨a,ha,henabled,hgro,hmodel,hid⟩ := h.listed c hmem group model hoffe
    have hfound := hid ▸ get?_of_mem hmem
    refine ⟨a,mem_filter.mpr ⟨ha,?_⟩,hfound⟩
    simp [abilityBaseCondition,henabled,hgro,hmodel,abilityTenantScope_eq hfound,hsho]

lemma cachedVerdict_rebuild :
    cachedVerdict (rebuildChannelCache chans paused) tid group model retry pred =
      let cs := shown chans paused tid group model
      let accepted := (pred.map fun p => cs.filter p).getD cs
      if cs = [] then .noCandidate else if accepted = [] then .onlyRejected else .draws (tier accepted retry) := by
  have hall := cached_shown chans paused tid group model
  simp only [cachedVerdict,filterChannelsForTenant_rebuild]
  cases pred with
  | none => simp [resolve_map hall]
  | some p =>
    have hp : ∀ c ∈ (shown chans paused tid group model).filter p,
        (rebuildChannelCache chans paused).channelsIDM.get? c.id = some c := fun c hc => hall c (mem_filter.mp hc).1
    simp [filterChannelsWhere,keepIds_map hall,resolve_map hp]

def Listed (channels : Channels) (paused : Paused) (group model : String) : Prop :=
  ∃ c ∈ channels.rows, Offers paused group model c

def ListedFor (channels : Channels) (paused : Paused) (tenantID group model : String) : Prop :=
  ∃ c ∈ channels.rows, Offers paused group model c ∧ Shown tenantID c = true

lemma indexed_ne_nil : indexed chans paused group model ≠ [] ↔ Listed chans paused group model := by
  rw [ne_eq,eq_nil_iff_forall_not_mem,not_forall_not]
  simp only [mem_indexed,Listed]

lemma filter_ne_nil :
    (indexed chans paused group model).filter (Shown tid) ≠ [] ↔ ListedFor chans paused tid group model := by
  rw [ne_eq,eq_nil_iff_forall_not_mem,not_forall_not]
  simp [mem_indexed,ListedFor,and_assoc]

theorem shown_eq (h : Listed chans paused group model ∨
    ¬ListedFor chans paused tid group (formatMatchingModelName model)) :
    shown chans paused tid group model = (indexed chans paused group model).filter (Shown tid) := by
  unfold shown
  split_ifs with hnil
  · rcases h with hlisted | hnone
    · exact absurd hnil (indexed_ne_nil.mpr hlisted)
    · rw [hnil,not_not.mp (filter_ne_nil.not.mpr hnone)]
      rfl
  · rfl

/-! Where the branches agree. -/

def drawnRows (db : Database) (tenantID group model : String) (retry : ℕ) : Option (Channel → Bool) → List Ability
  | none => orderByWeight ((getChannelQuery db group model retry tenantID).toOption.getD [])
  | some pred => candidatesWhere db group model retry tenantID pred

lemma databaseVerdict_answers (hsync : InSync db paused)
    (hr : InRange (drawnRows db tid group model retry pred) r) :
    (databaseVerdict db tid group model retry pred).Answers .noChannelSatisfiesPredicate
      (getRandomSatisfiedChannelWhereDB db tid group model retry pred (Int64.ofNat r)) := by
  cases pred with
  | none =>
    refine verdictForTenant_answers (fun a ha => ?_) fun rows hquery => ?_
    · obtain ⟨c,-,hc,-⟩ := (standFor_baseRows hsync tid group model).channel a ha
      exact hc ▸ Option.some_ne_none c
    · rwa [drawnRows,hquery] at hr
  | some p => exact verdictWhere_answers hr

lemma databaseVerdict_nil (h : baseRows db group model tid = []) :
    databaseVerdict db tid group model retry pred = if pred.isNone ∧ retry ≠ 0 then .fails else .noCandidate := by
  cases pred with
  | none =>
    simp only [databaseVerdict,verdictForTenant,getChannelQuery_nil h]
    by_cases hret : retry = 0
    · simp [hret,orderByWeight]
    · simp [hret]
  | some p => simp [databaseVerdict,verdictWhere,h,orderByWeight]

theorem agree_databaseVerdict (h : StandFor db (baseRows db group model tid) cs) (hne : cs ≠ []) (retry : ℕ)
    (pred : Option (Channel → Bool)) :
    let accepted := (pred.map fun p => cs.filter p).getD cs
    (if accepted = [] then Verdict.onlyRejected else .draws (tier accepted retry)).Agree
      (databaseVerdict db tid group model retry pred) := by
  have hrows := h.nil_iff.not.mpr hne
  have horder : StandFor db (orderByWeight (baseRows db group model tid)) cs := h.of_perm (perm_insertionSort _ _)
  cases pred with
  | none =>
    have htier : orderByWeight (tierRows (baseRows db group model tid) retry) ≠ [] := fun hnil =>
      tierRows_ne_nil hrows retry (nil_perm.mp (hnil ▸ perm_insertionSort _ _))
    simp only [Option.map_none,Option.getD_none,if_neg hne,databaseVerdict,verdictForTenant,
      getChannelQuery_eq hrows h.ranked,if_neg htier]
    exact h.agree (perm_insertionSort _ _)
  | some p =>
    have haccepted := horder.accepted p
    simp only [Option.map_some,Option.getD_some,databaseVerdict,verdictWhere,if_neg (horder.nil_iff.not.mpr hne),
      haccepted.nil_iff]
    split_ifs with hnil
    · trivial
    · exact haccepted.agree (List.Perm.refl _)

/-- The branches differ over the normalised name and over a retry without a row. -/
theorem branches_agree_iff {db : Database} {paused : Paused} (hsync : InSync db paused) (tenantID group model : String)
    (retry : ℕ) (pred : Option (Channel → Bool)) :
    (cachedVerdict (rebuildChannelCache db.channels paused) tenantID group model retry pred).Agree
      (databaseVerdict db tenantID group model retry pred) ↔ (Listed db.channels paused group model ∨
        ¬ListedFor db.channels paused tenantID group (formatMatchingModelName model)) ∧
      (pred = none → retry ≠ 0 → ListedFor db.channels paused tenantID group model) := by
  have hrows := standFor_baseRows hsync tenantID group model
  rw [cachedVerdict_rebuild]
  by_cases hname : Listed db.channels paused group model ∨
      ¬ListedFor db.channels paused tenantID group (formatMatchingModelName model)
  · rw [shown_eq hname]
    by_cases hlisted : ListedFor db.channels paused tenantID group model
    · have hne := filter_ne_nil.mpr hlisted
      have hagr := agree_databaseVerdict hrows hne retry pred
      simp only [if_neg hne]
      exact ⟨fun _ => ⟨hname,fun _ _ => hlisted⟩,fun _ => hagr⟩
    · have hnil := not_not.mp (filter_ne_nil.not.mpr hlisted)
      rw [databaseVerdict_nil (hrows.nil_iff.mpr hnil)]
      simp only [if_pos hnil]
      split_ifs with hret
      · have hnone : pred = none := Option.isNone_iff_eq_none.mp hret.1
        exact ⟨False.elim,fun hcond => hlisted (hcond.2 hnone hret.2)⟩
      · refine ⟨fun _ => ⟨hname,fun hnone hzero => ?_⟩,fun _ => trivial⟩
        exact absurd ⟨Option.isNone_iff_eq_none.mpr hnone,hzero⟩ hret
  · obtain ⟨hexa,hnor⟩ := not_or.mp hname
    have hind := not_not.mp (indexed_ne_nil.not.mpr hexa)
    have hsho : shown db.channels paused tenantID group model ≠ [] := by
      unfold shown
      rw [if_pos hind]
      exact filter_ne_nil.mpr (not_not.mp hnor)
    rw [hind] at hrows
    rw [databaseVerdict_nil (hrows.nil_iff.mpr rfl)]
    simp only [if_neg hsho]
    refine ⟨fun hagr => ?_,fun hcond => absurd hcond.1 hname⟩
    split_ifs at hagr <;> exact hagr.elim

lemma inSync_single {a : Ability} {c : Channel} (hgro : c.group = [a.group]) (hmodels : c.models = [a.model])
    (hrow : a.enabled = true ∧ a.channelId = c.id ∧ a.priority = some c.getPriority)
    (hoffe : Offers paused a.group a.model c) :
    InSync ⟨empty.put a,empty.put c⟩ paused where
  listed d hd group model hd' := by
    obtain rfl : d = c := mem_singleton.mp hd
    obtain ⟨-,hg,hm,-⟩ := hd'
    rw [hgro] at hg
    rw [hmodels] at hm
    exact ⟨a,mem_singleton_self a,hrow.1,(mem_singleton.mp hg).symm,(mem_singleton.mp hm).symm,hrow.2.1⟩
  offered b hb _ := by
    obtain rfl : b = a := mem_singleton.mp hb
    exact ⟨c,mem_singleton_self c,hrow.2.1.symm,hoffe,hrow.2.2⟩

lemma inSync_oneRow : InSync oneRow fun _ _ => false := inSync_single rfl rfl (by decide) (by decide)

theorem branches_agree_oneRow :
    (cachedVerdict (rebuildChannelCache oneRow.channels fun _ _ => false) "t" "default" "gpt-4" 1 none).Agree
      (databaseVerdict oneRow "t" "default" "gpt-4" 1 none) :=
  (branches_agree_iff inSync_oneRow "t" "default" "gpt-4" 1 none).mpr
    ⟨.inl ⟨heavyChannel,by decide +kernel,by decide +kernel⟩,fun _ _ =>
      ⟨heavyChannel,by decide +kernel,by decide +kernel⟩⟩

/-- A channel for all models of a family, under the name that stands for them. -/
def gizmoChannel : Channel := { heavyChannel with models := ["gpt-4-gizmo-*"] }

def gizmoRow : Ability := { heavyRow with model := "gpt-4-gizmo-*" }

def gizmos : Database where
  abilities := empty.put gizmoRow
  channels := empty.put gizmoChannel

lemma inSync_gizmos : InSync gizmos fun _ _ => false := inSync_single rfl rfl (by decide) (by decide)

theorem branches_differ_gizmo : InSync gizmos (fun _ _ => false) ∧
    getRandomSatisfiedChannelWhere (rebuildChannelCache gizmos.channels fun _ _ => false) (fun _ => none) "" "default"
      "gpt-4-gizmo-x" 0 none 0 = .ok (some gizmoChannel) ∧
    getRandomSatisfiedChannelWhereDB gizmos "" "default" "gpt-4-gizmo-x" 0 none 0 = .ok none ∧
    getRandomSatisfiedChannelWhereDB gizmos "" "default" "gpt-4-gizmo-x" 1 none 0 = .error .consistencyViolated ∧
    ¬(cachedVerdict (rebuildChannelCache gizmos.channels fun _ _ => false) "" "default" "gpt-4-gizmo-x" 0 none).Agree
      (databaseVerdict gizmos "" "default" "gpt-4-gizmo-x" 0 none) := by
  have hcached : cachedVerdict
    (rebuildChannelCache gizmos.channels fun _ _ => false) "" "default" "gpt-4-gizmo-x" 0 none =
      .draws [gizmoChannel] := by decide +kernel
  have hdatabase : databaseVerdict gizmos "" "default" "gpt-4-gizmo-x" 0 none = .noCandidate := by decide +kernel
  refine ⟨inSync_gizmos,by decide +kernel,by decide +kernel,by decide +kernel,fun hagr => ?_⟩
  rw [hcached] at hagr
  exact hagr

end LurusHub.AbilityRouting
