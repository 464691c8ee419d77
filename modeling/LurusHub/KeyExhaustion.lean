import LurusHub.KeyDisabling
import Mathlib.Data.Finset.Max

/-! When a channel has no key left. Parking the last key takes the channel for exhausted when as
many keys have a status as it has keys; a pick looks at the statuses one by one and, in weighted
mode, at the weights. -/
namespace LurusHub.KeyPool
open ChannelCache Transition KeyedTable WeightedRotation List Option

/-! The writers of the keys' states. -/

inductive Write
  | park (usingKey : String) (cooldownUntil : ℤ) (keepStatus : Bool)
  | update (usingKey : String) (status : ChannelStatus)
  | clear (keyIndex : ℕ)

def write (channel : Channel) : Write → Channel
  | .park usingKey cooldownUntil keepStatus => (applyMultiKeyCooldownOpt usingKey cooldownUntil keepStatus channel).1
  | .update usingKey status => handlerMultiKeyUpdate usingKey status channel
  | .clear keyIndex => { channel with channelInfo := clearMultiKeyCooldown channel.channelInfo keyIndex }

structure Unmarked (channel : Channel) : Prop where
  isMultiKey : channel.channelInfo.isMultiKey = true
  size : channel.channelInfo.multiKeySize = channel.keys.length
  status : channel.channelInfo.multiKeyStatusList = .empty
  cooldownUntil : channel.channelInfo.multiKeyCooldownUntil = .empty

structure Counted (channel : Channel) : Prop where
  isMultiKey : channel.channelInfo.isMultiKey = true
  size : channel.channelInfo.multiKeySize = channel.keys.length
  status : ∀ idx entry, channel.channelInfo.multiKeyStatusList.get? idx = some entry →
    idx < channel.keys.length ∧ entry.2 ≠ .enabled
  cooldownUntil : ∀ idx entry, channel.channelInfo.multiKeyCooldownUntil.get? idx = some entry →
    idx < channel.keys.length

lemma Unmarked.counted (h : Unmarked channel) : Counted channel := by
  refine ⟨h.isMultiKey,h.size,fun idx entry hget => ?_,fun idx entry hget => ?_⟩
  · rw [h.status] at hget
    cases hget
  · rw [h.cooldownUntil] at hget
    cases hget

lemma Counted.parkKey (h : Counted ch) (hindex : index < ch.keys.length) (till : ℤ) :
    Counted { ch with channelInfo := ChannelCache.parkKey ch.channelInfo index till } := by
  refine ⟨h.isMultiKey,h.size,?_,?_⟩
  · exact forall_get?_put ⟨hindex,by simp⟩ h.status
  · exact forall_get?_put hindex h.cooldownUntil

lemma Counted.of_info (h : Counted c) (hkeys : d.keys = c.keys)
    (hinfo : d.channelInfo = c.channelInfo) : Counted d := by
  obtain ⟨hmulti,hsize,hstatus,hunt⟩ := h
  rw [← hinfo,← hkeys] at *
  exact ⟨hmulti,hsize,hstatus,hunt⟩

lemma Counted.park (h : Counted ch) (k : String) (till : ℤ) (keep : Bool) :
    Counted (applyMultiKeyCooldownOpt k till keep ch).1 := by
  unfold applyMultiKeyCooldownOpt
  split
  · exact h
  · next index hindex =>
    have hpar := h.parkKey (findIdx?_eq_some_iff_getElem.mp hindex).1 till
    dsimp only
    split
    · exact hpar
    · exact hpar.of_info rfl rfl

lemma keyIndex_lt (hkeys : ch.keys ≠ []) (k : String) : keyIndex ch k < ch.keys.length := by
  unfold keyIndex
  cases h : ch.keys.findIdx? (· = k) with
  | none => exact length_pos_iff.mpr hkeys
  | some index => exact (findIdx?_eq_some_iff_getElem.mp h).1

lemma Counted.update (h : Counted ch) (k : String) (status : ChannelStatus) :
    Counted (handlerMultiKeyUpdate k status ch) := by
  by_cases hkeys : ch.keys = []
  · exact h.of_info rfl (by simp [handlerMultiKeyUpdate,hkeys])
  · have hlt := keyIndex_lt hkeys k
    have hsta : ∀ idx entry, (keyStatuses ch k status).get? idx = some entry →
        idx < ch.keys.length ∧ entry.2 ≠ .enabled := by
      unfold keyStatuses
      split
      · exact forall_get?_delete h.status _
      · next hoff => exact forall_get?_put ⟨hlt,hoff⟩ h.status
    simp only [handlerMultiKeyUpdate,hkeys]
    exact ⟨h.isMultiKey,h.size,hsta,h.cooldownUntil⟩

lemma Counted.clear (h : Counted ch) (keyIndex : ℕ) :
    Counted { ch with channelInfo := clearMultiKeyCooldown ch.channelInfo keyIndex } :=
  ⟨h.isMultiKey,h.size,forall_get?_delete h.status _,forall_get?_delete h.cooldownUntil _⟩

lemma Counted.write (h : Counted ch) (w : Write) : Counted (KeyPool.write ch w) := by
  cases w with
  | park k till keep => exact h.park k till keep
  | update k status => exact h.update k status
  | clear keyIndex => exact h.clear keyIndex

lemma Counted.run (h : Counted ch) (writes : List Write) : Counted (Transition.run KeyPool.write ch writes) :=
  run_stable (fun _ w hc => hc.write w) writes h

/-! What a pick can return. -/

def NoKey (channel : Channel) : Prop :=
  ∀ key rot picked, (getNextEnabledKey channel key rot).result ≠ .ok picked

lemma getNextEnabledKey_of_routable (hmulti : channel.channelInfo.isMultiKey)
    (h : Routable channel idx) (hcached : rot.cached ≠ none) :
    ∃ picked, (getNextEnabledKey channel key rot).result = .ok picked := by
  obtain ⟨⟨hlt,hweight⟩,hstatus⟩ := h
  have hkeys : channel.keys ≠ [] := length_pos_iff.mp (by omega)
  have henabled : idx ∈ enabledIdx channel := mem_enabledIdx.mpr ⟨hlt,hstatus⟩
  obtain ⟨saved,hsav⟩ := ne_none_iff_exists'.mp hcached
  cases hidx : enabledIdx channel with
  | nil =>
    rw [hidx] at henabled
    cases henabled
  | cons first rest =>
    rw [hidx] at henabled
    simp only [getNextEnabledKey,hmulti,hkeys,hidx,Bool.true_eq_false,if_false]
    cases hmode : channel.channelInfo.multiKeyMode with
    | random | other => exact ⟨_,rfl⟩
    | weighted =>
      have hpos : ∃ i ∈ (first::rest).map (Nat.cast : ℕ → ℤ), 0 < keyWeight channel.channelInfo i.toNat :=
        ⟨idx,mem_map_of_mem henabled,hweight hmode⟩
      obtain ⟨b,cur',hnext,_⟩ := nextWeighted_turn rot.cursor channel.id (hidx ▸ nodup_enabledIdx channel) hpos
      simp only [hnext]
      exact ⟨_,rfl⟩
    | polling =>
      simp only [hsav]
      split <;> exact ⟨_,rfl⟩

lemma noKey_iff (hmulti : ch.channelInfo.isMultiKey) : NoKey ch ↔ ∀ idx, ¬Routable ch idx := by
  constructor
  · intro hno idx hrou
    have hcached : ({ cached := some 0 } : Rotation).cached ≠ none := by simp
    obtain ⟨picked,hpic⟩ := getNextEnabledKey_of_routable hmulti hrou hcached
    exact hno "" _ picked hpic
  · rintro hno key rot ⟨key',idx⟩ hok
    exact hno idx (getNextEnabledKey_routable hmulti hok)

/-! Counting the keys that are off. -/

def Serving (channel : Channel) : Prop :=
  ∃ idx < channel.keys.length, keyStatus channel.channelInfo idx = .enabled

lemma Counted.keyStatus_eq_enabled (h : Counted ch) :
    keyStatus ch.channelInfo idx = .enabled ↔ ch.channelInfo.multiKeyStatusList.get? idx = none := by
  unfold keyStatus
  cases hget : ch.channelInfo.multiKeyStatusList.get? idx with
  | none => simp
  | some entry => simpa using (h.status idx entry hget).2

lemma Counted.size_le_iff (h : Counted channel) :
    channel.channelInfo.multiKeySize ≤ channel.channelInfo.multiKeyStatusList.size ↔ ¬Serving channel := by
  have hcard : (channel.channelInfo.multiKeyStatusList.rows.map Prod.fst).toFinset.card
      = channel.channelInfo.multiKeyStatusList.size := by
    rw [toFinset_card_of_nodup channel.channelInfo.multiKeyStatusList.unique,length_map,KeyedTable.size]
  have hmem : ∀ idx, idx ∈ (channel.channelInfo.multiKeyStatusList.rows.map Prod.fst).toFinset ↔
      keyStatus channel.channelInfo idx ≠ .enabled := by
    intro idx
    rw [List.mem_toFinset,mem_map_rows,ne_eq,h.keyStatus_eq_enabled,isSome_iff_ne_none]
  have hsub : (channel.channelInfo.multiKeyStatusList.rows.map Prod.fst).toFinset ⊆
    Finset.range channel.keys.length := by
    intro idx hidx
    rw [List.mem_toFinset,mem_map_rows,isSome_iff_exists] at hidx
    obtain ⟨entry,hentry⟩ := hidx
    exact Finset.mem_range.mpr (h.status idx entry hentry).1
  rw [h.size,← hcard,Nat.cast_le]
  constructor
  · rintro hle ⟨idx,hlt,henabled⟩
    have hall := Finset.eq_of_subset_of_card_le hsub (by rwa [Finset.card_range])
    exact (hmem idx).mp (hall ▸ Finset.mem_range.mpr hlt) henabled
  · intro hnone
    have hsup : Finset.range channel.keys.length ⊆
        (channel.channelInfo.multiKeyStatusList.rows.map Prod.fst).toFinset := by
      intro idx hidx
      exact (hmem idx).mpr fun henabled => hnone ⟨idx,Finset.mem_range.mp hidx,henabled⟩
    simpa using Finset.card_le_card hsup

/-! The deadline that is reported. -/

theorem foldl_earliest {deadlines : List ℤ}
    (h : IsLeast {u | (u = earliest ∧ earliest ≠ 0) ∨ u ∈ deadlines} m) (hm : m ≠ 0) :
    deadlines.foldl (fun earliest u => if earliest = 0 || u < earliest then u else earliest) earliest = m := by
  induction deadlines generalizing earliest with
  | nil =>
    rcases h.1 with ⟨rfl,-⟩ | hmem
    · rfl
    · cases hmem
  | cons u deadlines ih =>
    have hu : m ≤ u := h.2 (.inr mem_cons_self)
    have hrest : ∀ w ∈ deadlines, m ≤ w := fun w hw => h.2 (.inr (mem_cons_of_mem _ hw))
    rw [foldl_cons]
    by_cases hrep : earliest = 0 ∨ u < earliest
    · rw [if_pos (by simpa using hrep)]
      refine ih ⟨?_,?_⟩
      · rcases h.1 with ⟨rfl,hne⟩ | hmem
        · exact absurd hu (not_le.mpr (hrep.resolve_left hne))
        · rcases mem_cons.mp hmem with rfl | hmem
          · exact .inl ⟨rfl,hm⟩
          · exact .inr hmem
      · rintro w (⟨rfl,-⟩ | hw)
        · exact hu
        · exact hrest w hw
    · rw [if_neg (by simpa using hrep)]
      push Not at hrep
      have he : m ≤ earliest := h.2 (.inl ⟨rfl,hrep.1⟩)
      refine ih ⟨?_,?_⟩
      · rcases h.1 with hkept | hmem
        · exact .inl hkept
        · rcases mem_cons.mp hmem with rfl | hmem
          · exact .inl ⟨le_antisymm he hrep.2,hrep.1⟩
          · exact .inr hmem
      · rintro w (⟨rfl,-⟩ | hw)
        · exact he
        · exact hrest w hw

def LeastDeadline (channel : Channel) (m : ℤ) : Prop :=
  IsLeast {u | ∃ idx < channel.keys.length, channel.channelInfo.multiKeyCooldownUntil.get? idx = some (idx,u)} m

lemma Counted.mem_deadlines (h : Counted ch) :
    u ∈ ch.channelInfo.multiKeyCooldownUntil.rows.map Prod.snd ↔
      ∃ idx < ch.keys.length, ch.channelInfo.multiKeyCooldownUntil.get? idx = some (idx,u) := by
  constructor
  · intro hu
    obtain ⟨⟨idx,u'⟩,hrow,rfl⟩ := mem_map.mp hu
    have hget := get?_of_mem hrow
    exact ⟨idx,h.cooldownUntil idx _ hget,hget⟩
  · rintro ⟨idx,-,hget⟩
    exact mem_map.mpr ⟨(idx,u),mem_of_get? hget,rfl⟩

lemma Counted.earliestRecovery_eq (h : Counted ch) : earliestRecovery ch.channelInfo
      = (ch.channelInfo.multiKeyCooldownUntil.rows.map Prod.snd).foldl
          (fun earliest u => if earliest = 0 || u < earliest then u else earliest) 0 := by
  have hskip : ∀ idx, (ch.channelInfo.multiKeyStatusList.get? idx).map Prod.snd ≠ some .enabled := by
    intro idx hstatus
    obtain ⟨entry,hentry,henabled⟩ := map_eq_some_iff.mp hstatus
    exact (h.status idx entry hentry).2 henabled
  rw [earliestRecovery,foldl_map]
  simp only [hskip,if_false]

lemma Counted.earliestRecovery_of_least (h : Counted ch)
    (hleast : LeastDeadline ch m) (hm : m ≠ 0) : earliestRecovery ch.channelInfo = m := by
  rw [h.earliestRecovery_eq]
  refine foldl_earliest ?_ hm
  simpa [h.mem_deadlines,LeastDeadline] using hleast

/-! Parking a key. -/

lemma park_info {ch : Channel} {k : String} (hkey : k ∈ ch.keys) (till : ℤ) (keep : Bool) :
    let parked := applyMultiKeyCooldownOpt k till keep ch
    parked.1.keys = ch.keys ∧ parked.1.channelInfo = parkKey ch.channelInfo (keyIndex ch k) till ∧
      parked.2 = if parked.1.channelInfo.multiKeySize ≤ parked.1.channelInfo.multiKeyStatusList.size then
        earliestRecovery parked.1.channelInfo else 0 := by
  obtain ⟨index,hindex⟩ : ∃ index, ch.keys.findIdx? (· = k) = some index := by
    rw [← isSome_iff_exists]
    simpa using hkey
  simp only [applyMultiKeyCooldownOpt,keyIndex,hindex,getD_some]
  by_cases hsize : ((parkKey ch.channelInfo index till).multiKeyStatusList.size : ℤ)
      < (parkKey ch.channelInfo index till).multiKeySize
  · rw [if_pos hsize]
    exact ⟨rfl,rfl,by rw [if_neg (not_le.mpr hsize)]⟩
  · rw [if_neg hsize]
    exact ⟨rfl,rfl,by rw [if_pos (not_lt.mp hsize)]⟩

lemma Counted.exists_least (h : Counted ch)
    (hentry : ch.channelInfo.multiKeyCooldownUntil.get? index = some (index,u)) : ∃ m, LeastDeadline ch m := by
  have hne : (ch.channelInfo.multiKeyCooldownUntil.rows.map Prod.snd).toFinset.Nonempty :=
    ⟨u,List.mem_toFinset.mpr (mem_map.mpr ⟨(index,u),mem_of_get? hentry,rfl⟩)⟩
  have hset : ((ch.channelInfo.multiKeyCooldownUntil.rows.map Prod.snd).toFinset : Set ℤ)
      = {u | ∃ idx < ch.keys.length, ch.channelInfo.multiKeyCooldownUntil.get? idx = some (idx,u)} := by
    ext u
    rw [Finset.mem_coe,List.mem_toFinset]
    exact h.mem_deadlines
  exact ⟨_,hset ▸ Finset.isLeast_min' _ hne⟩

/-- The report of a parking tells exactly whether a key is left, and when the first one comes back. -/
def ReportsExactly (channel : Channel) (allParkedUntil : ℤ) : Prop :=
  (allParkedUntil ≠ 0 ↔ NoKey channel) ∧ (allParkedUntil ≠ 0 → LeastDeadline channel allParkedUntil)

lemma Counted.reportsExactly_iff {ch : Channel} {k : String} (h : Counted ch) (hkey : k ∈ ch.keys) (till : ℤ)
    (keep : Bool) :
    let parked := applyMultiKeyCooldownOpt k till keep ch
    ReportsExactly parked.1 parked.2 ↔
      (Serving parked.1 → ∃ idx, Routable parked.1 idx) ∧ (¬Serving parked.1 → ¬LeastDeadline parked.1 0) := by
  intro parked
  have hcounted : Counted parked.1 := h.park k till keep
  obtain ⟨-,hinfo,hreport⟩ : parked.1.keys = _ ∧ parked.1.channelInfo = _ ∧ parked.2 = _ :=
    park_info hkey till keep
  have hown : parked.1.channelInfo.multiKeyCooldownUntil.get? (keyIndex ch k) = some (keyIndex ch k,till) := by
    simp [hinfo,ChannelCache.parkKey,get?_put]
  rw [ReportsExactly,noKey_iff hcounted.isMultiKey,hreport]
  by_cases hserving : Serving parked.1
  · rw [if_neg (fun hle => hcounted.size_le_iff.mp hle hserving)]
    simp [hserving]
  · rw [if_pos (hcounted.size_le_iff.mpr hserving)]
    have hnone : ∀ idx, ¬Routable parked.1 idx := fun idx hrou => hserving ⟨idx,hrou.1.1,hrou.2⟩
    obtain ⟨m,hm⟩ := hcounted.exists_least hown
    by_cases hzero : m = 0
    · -- a least deadline of 0 is either returned, as if a key were left, or forgotten for another
      subst hzero
      refine iff_of_false ?_ fun hcond => hcond.2 hserving hm
      rintro ⟨hexa,hleast⟩
      have hne := hexa.mpr hnone
      exact hne ((hleast hne).unique hm)
    · rw [hcounted.earliestRecovery_of_least hm hzero]
      refine iff_of_true ⟨iff_of_true hzero hnone,fun _ => hm⟩ ⟨fun hyes => absurd hyes hserving,fun _ hleast => ?_⟩
      exact hzero (hm.unique hleast)

/-! The condition on the channel before the call. -/

/-- A key other than the parked one is enabled. -/
def LeavesEnabled (channel : Channel) (usingKey : String) : Prop :=
  ∃ idx < channel.keys.length, idx ≠ keyIndex channel usingKey ∧ keyStatus channel.channelInfo idx = .enabled

/-- The deadlines the call leaves: its own and those of the other keys. -/
def deadlinesAfter (channel : Channel) (usingKey : String) (cooldownUntil : ℤ) : Set ℤ :=
  {u | u = cooldownUntil ∨ ∃ idx < channel.keys.length, idx ≠ keyIndex channel usingKey ∧
    channel.channelInfo.multiKeyCooldownUntil.get? idx = some (idx,u)}

section parked
variable {ch : Channel} {k : String} (hkey : k ∈ ch.keys) (till : ℤ) (keep : Bool)
include hkey

lemma enabled_park (idx : ℕ) :
    keyStatus (applyMultiKeyCooldownOpt k till keep ch).1.channelInfo idx = .enabled ↔
      idx ≠ keyIndex ch k ∧ keyStatus ch.channelInfo idx = .enabled := by
  rw [(park_info hkey till keep).2.1]
  by_cases h : idx = keyIndex ch k <;> simp [keyStatus,parkKey,get?_put,h]

lemma serving_park : Serving (applyMultiKeyCooldownOpt k till keep ch).1 ↔ LeavesEnabled ch k := by
  simp only [Serving,LeavesEnabled,enabled_park hkey,(park_info hkey till keep).1]

lemma routable_park (idx : ℕ) :
    Routable (applyMultiKeyCooldownOpt k till keep ch).1 idx ↔ idx ≠ keyIndex ch k ∧ Routable ch idx := by
  have hweight : Selectable (applyMultiKeyCooldownOpt k till keep ch).1 idx ↔ Selectable ch idx := by
    rw [Selectable,Selectable,(park_info hkey till keep).1,(park_info hkey till keep).2.1]
    rfl
  rw [Routable,Routable,hweight,enabled_park hkey]
  tauto

lemma leastDeadline_park (m : ℤ) :
    LeastDeadline (applyMultiKeyCooldownOpt k till keep ch).1 m ↔ IsLeast (deadlinesAfter ch k till) m := by
  have hlt := keyIndex_lt (ne_nil_of_mem hkey) k
  rw [LeastDeadline,(park_info hkey till keep).1,(park_info hkey till keep).2.1]
  suffices hset : {u | ∃ idx < ch.keys.length, (parkKey ch.channelInfo (keyIndex ch k) till).multiKeyCooldownUntil.get? idx
      = some (idx,u)} = deadlinesAfter ch k till by rw [hset]
  ext u
  simp only [Set.mem_ofPred_eq,deadlinesAfter,parkKey,get?_put]
  constructor
  · rintro ⟨idx,hidx,hget⟩
    by_cases h : idx = keyIndex ch k
    · simp only [h,if_true,Option.some.injEq,Prod.mk.injEq,true_and] at hget
      exact .inl hget.symm
    · rw [if_neg h] at hget
      exact .inr ⟨idx,hidx,h,hget⟩
  · rintro (rfl | ⟨idx,hidx,hne,hget⟩)
    · exact ⟨_,hlt,by simp⟩
    · exact ⟨idx,hidx,by rw [if_neg hne,hget]⟩

end parked

theorem park_reportsExactly_iff (start : Channel) (hstart : Unmarked start) (writes : List Write) (usingKey : String)
    (hkey : usingKey ∈ (run write start writes).keys) (cooldownUntil : ℤ) (keepStatus : Bool) :
    let channel := run write start writes
    let parked := applyMultiKeyCooldownOpt usingKey cooldownUntil keepStatus channel
    ReportsExactly parked.1 parked.2 ↔
      (LeavesEnabled channel usingKey → ∃ idx, idx ≠ keyIndex channel usingKey ∧ Routable channel idx) ∧
      (¬LeavesEnabled channel usingKey → ¬IsLeast (deadlinesAfter channel usingKey cooldownUntil) 0) := by
  intro channel parked
  have hiff := (hstart.counted.run writes).reportsExactly_iff hkey cooldownUntil keepStatus
  simpa only [serving_park hkey,routable_park hkey,leastDeadline_park hkey] using hiff

def weightless : Channel where
  id := 1
  keys := ["a","b"]
  models := []
  group := []
  channelInfo := {
    isMultiKey := true
    multiKeySize := 2
    multiKeyMode := .weighted
    multiKeyWeight := KeyedTable.put .empty (1,0) }

theorem park_misses_weightless :
    Unmarked weightless ∧ (applyMultiKeyCooldownOpt "a" 100 false weightless).2 = 0 ∧
      NoKey (applyMultiKeyCooldownOpt "a" 100 false weightless).1 ∧
      ¬ReportsExactly (applyMultiKeyCooldownOpt "a" 100 false weightless).1
        (applyMultiKeyCooldownOpt "a" 100 false weightless).2 := by
  have hreport : (applyMultiKeyCooldownOpt "a" 100 false weightless).2 = 0 := by decide +kernel
  have hnone : NoKey (applyMultiKeyCooldownOpt "a" 100 false weightless).1 := by
    refine (noKey_iff (by decide +kernel)).mpr ?_
    rintro idx ⟨⟨hlt,hweight⟩,henabled⟩
    have hlt' : idx < 2 := hlt
    have hidx : idx = 0 ∨ idx = 1 := by omega
    rcases hidx with rfl | rfl
    · exact absurd henabled (by decide +kernel)
    · exact absurd (hweight (by decide +kernel)) (by decide +kernel)
  exact ⟨⟨rfl,rfl,rfl,rfl⟩,hreport,hnone,fun hexa => hexa.1.mpr hnone hreport⟩

theorem park_reportsExactly_last :
    let start := { weightless with channelInfo := { weightless.channelInfo with multiKeyMode := .polling } }
    let parked := applyMultiKeyCooldownOpt "b" 200 false (run write start [.park "a" 100 false])
    parked.2 = 100 ∧ ReportsExactly parked.1 parked.2 := by
  intro start parked
  have hreport : parked.2 = 100 := by decide +kernel
  refine ⟨hreport,(park_reportsExactly_iff start ⟨rfl,rfl,rfl,rfl⟩ [.park "a" 100 false] "b" (by decide +kernel) 200
    false).mpr ⟨?_,fun _ hleast => ?_⟩⟩
  · rintro ⟨idx,hlt,hne,henabled⟩
    have hlt' : idx < 2 := hlt
    have hidx : idx = 0 ∨ idx = 1 := by omega
    rcases hidx with rfl | rfl
    · exact absurd henabled (by decide +kernel)
    · exact absurd (by decide +kernel) hne
  · rcases hleast.1 with hown | ⟨idx,hlt,-,hget⟩
    · cases hown
    · have hlt' : idx < 2 := hlt
      have hidx : idx = 0 ∨ idx = 1 := by omega
      rcases hidx with rfl | rfl <;> exact absurd hget (by decide +kernel)

end LurusHub.KeyPool
