import Mathlib.Data.List.Sigma
import LurusHub.KeyDisabling
import Mathlib.Data.List.Rotate

/-! Polling over the keys of a cached channel. A call reads the position from the cache and writes
it to the cached channel; a rebuild makes new channels and carries the positions over. Counted in
enabled keys, the position goes up by one with every call. -/
namespace LurusHub.Polling
open ChannelCache KeyPool KeyedTable
open List hiding after keys

def cacheGetChannelInfo (cache : Cache) (id : ℤ) : Option ChannelInfo := (cache.channelsIDM.get? id).map Channel.channelInfo

/-- `GetNextEnabledKey` on the cached channel; no answer if there is none. -/
def nextCachedKey (cache : Cache) (id : ℤ) (key : String) (rot : Rotation) : Cache × Option (Except KeyError (String × ℕ)) :=
  match cache.channelsIDM.get? id with
  | none => (cache,none)
  | some channel =>
    let saved := (cacheGetChannelInfo cache id).map ChannelInfo.multiKeyPollingIndex
    let picked := getNextEnabledKey channel key { rot with cached := saved }
    let channelsIDM := cache.channelsIDM.modify id fun c => { c with channelInfo := picked.channel.channelInfo }
    ({ cache with channelsIDM },some picked.result)

def Polls (info : ChannelInfo) : Bool := info.isMultiKey && info.multiKeyMode = .polling

def carryOverPollingIndices (cache : Cache) (id : ℤ) : Option ℤ :=
  ((cacheGetChannelInfo cache id).filter Polls).map ChannelInfo.multiKeyPollingIndex

def carried (cache : Cache) (channel : Channel) : Channel :=
  if Polls channel.channelInfo then
    { channel with channelInfo := { channel.channelInfo with
        multiKeyPollingIndex := (carryOverPollingIndices cache channel.id).getD channel.channelInfo.multiKeyPollingIndex } }
  else channel

def rebuildOver (cache : Cache) (channels : Channels) (paused : Paused) : Cache :=
  { rebuildChannelCache channels paused with
    channelsIDM := channels.updateWhere (fun _ => true) (carried cache) fun c => by
      unfold carried
      split <;> rfl }

inductive Event
  | nextKey (id : ℤ) (key : String) (rot : Rotation)
  | rebuild (channels : Channels) (paused : Paused)

def step (cache : Cache) : Event → Cache
  | .nextKey id key rot => (nextCachedKey cache id key rot).1
  | .rebuild channels paused => rebuildOver cache channels paused

def answer (id : ℤ) (cache : Cache) : Event → Option (Except KeyError (String × ℕ))
  | .nextKey id' key rot => if id' = id then (nextCachedKey cache id' key rot).2 else none
  | .rebuild _ _ => none

def answers (id : ℤ) : Cache → List Event → List (Except KeyError (String × ℕ))
  | _,[] => []
  | cache,e::es => (answer id cache e).toList++answers id (step cache e) es

def Event.calls (id : ℤ) : Event → Bool
  | .nextKey id' _ _ => id' = id
  | .rebuild _ _ => false

structure SamePool (c c' : Channel) : Prop where
  keys : c'.keys = c.keys
  enabled : enabledIdx c' = enabledIdx c
  polls : Polls c'.channelInfo = true

/-- A rebuild finds the channel in the database, with its keys unchanged. -/
def KeepsPool (c : Channel) : Event → Prop
  | .nextKey _ _ _ => True
  | .rebuild channels _ => ∃ c', channels.get? c.id = some c' ∧ SamePool c c'

/-! Positions. -/

def startAt (n : ℕ) (saved : ℤ) : ℕ := if saved < 0 ∨ n ≤ saved then 0 else saved.toNat

def rank (enabled : List ℕ) (pos : ℕ) : ℕ := enabled.countP (· < pos)

lemma startAt_lt (h : 0 < n) : startAt n saved < n := by
  unfold startAt
  split <;> omega

lemma startAt_natCast (h : pos < n) : startAt n pos = pos := by
  unfold startAt
  split <;> omega

lemma pollingOrder_eq :
    pollingOrder keys saved = (range keys.length).rotate (startAt keys.length saved) := by
  refine ext_getElem (by simp [pollingOrder]) fun i hi _ => ?_
  simp [pollingOrder,startAt,Nat.add_comm]

theorem filter_rotate_range (h : pos ≤ n) :
    ((range n).rotate pos).filter p = ((range n).filter p).rotate (rank ((range n).filter p) pos) := by
  have hsplit : (range n).filter p = ((range n).take pos).filter p++((range n).drop pos).filter p := by
    rw [← filter_append,take_append_drop]
  have hbefore : ∀ i ∈ ((range n).take pos).filter p, decide (i < pos) := by
    intro i hi
    have hmem := (mem_filter.mp hi).1
    rw [take_range,mem_range] at hmem
    simpa using (lt_min_iff.mp hmem).1
  have hafter : ∀ i ∈ ((range n).drop pos).filter p, ¬decide (i < pos) := by
    intro i hi
    obtain ⟨j,hj,rfl⟩ := mem_iff_getElem.mp (mem_filter.mp hi).1
    simp
  have hrank : rank ((range n).filter p) pos = (((range n).take pos).filter p).length := by
    rw [rank,hsplit,countP_append,countP_eq_length.mpr hbefore,countP_eq_zero.mpr hafter,Nat.add_zero]
  rw [hrank,rotate_eq_drop_append_take (by simpa using h),filter_append]
  conv_rhs => rw [hsplit]
  exact (rotate_append_length_eq _ _).symm

lemma sorted_enabledIdx : (enabledIdx channel).Pairwise (· < ·) := pairwise_lt_range.filter _

lemma rank_succ_getElem (hl : l.Pairwise (· < ·)) (hj : j < l.length) : rank l (l[j]+1) = j+1 := by
  induction l generalizing j with
  | nil => cases hj
  | cons a l ih =>
    obtain ⟨ha,hl⟩ := pairwise_cons.mp hl
    cases j with
    | zero =>
      have hnone : l.countP (· < a+1) = 0 := countP_eq_zero.mpr fun b hb => by simpa using Nat.succ_le_of_lt (ha b hb)
      rw [rank,getElem_cons_zero,countP_cons_of_pos (by simp),hnone]
    | succ j =>
      have hj' : j < l.length := by simpa using hj
      have hlt : a < l[j]+1 := Nat.lt_succ_of_lt (ha _ (getElem_mem hj'))
      have hrest := ih hl hj'
      rw [rank] at hrest
      rw [rank,getElem_cons_succ,countP_cons_of_pos (by simpa using hlt),hrest]

/-! One call. -/

def entry (c : Channel) (j : ℕ) : Except KeyError (String × ℕ) :=
  let idx := (enabledIdx c).getD (j%(enabledIdx c).length) 0
  .ok (c.keys.getD idx "",idx)

/-- The next call on the channel takes the `r`-th enabled key, going round. -/
def Points (c : Channel) (cache : Cache) (r : ℕ) : Prop :=
  ∃ c', cache.channelsIDM.get? c.id = some c' ∧ SamePool c c' ∧
    rank (enabledIdx c) (startAt c.keys.length c'.channelInfo.multiKeyPollingIndex)%(enabledIdx c).length =
      r%(enabledIdx c).length

lemma rank_length : rank (enabledIdx c) c.keys.length = (enabledIdx c).length :=
  countP_eq_length.mpr fun i hi => by simpa using (mem_enabledIdx.mp hi).1

lemma rank_next (hidx : (enabledIdx c)[j]? = some idx) :
    rank (enabledIdx c) ((idx+1)%c.keys.length)%(enabledIdx c).length = (j+1)%(enabledIdx c).length := by
  obtain ⟨hj,rfl⟩ := List.getElem?_eq_some_iff.mp hidx
  have hrank := rank_succ_getElem sorted_enabledIdx hj
  have hlt : (enabledIdx c)[j] < c.keys.length := (mem_enabledIdx.mp (getElem_mem hj)).1
  by_cases hlast : (enabledIdx c)[j]+1 = c.keys.length
  · have hfull : j+1 = (enabledIdx c).length := by rw [← hrank,hlast,rank_length]
    rw [hlast,hfull]
    simp [rank]
  · have hmod : ((enabledIdx c)[j]+1)%c.keys.length = (enabledIdx c)[j]+1 := Nat.mod_eq_of_lt (by omega)
    rw [hmod,hrank]

lemma find_pollingOrder (h : enabledIdx c ≠ []) :
    ∃ idx, (pollingOrder c.keys saved).find? (fun i => keyStatus c.channelInfo i = .enabled) = some idx ∧
      (enabledIdx c)[rank (enabledIdx c) (startAt c.keys.length saved)%(enabledIdx c).length]? = some idx := by
  have hpos : 0 < (enabledIdx c).length := length_pos_of_ne_nil h
  obtain ⟨i,hi⟩ := exists_mem_of_ne_nil _ h
  have hkeys : 0 < c.keys.length := Nat.zero_lt_of_lt (mem_enabledIdx.mp hi).1
  have hfind : (pollingOrder c.keys saved).find? (fun i => keyStatus c.channelInfo i = .enabled) =
      (enabledIdx c)[rank (enabledIdx c) (startAt c.keys.length saved)%(enabledIdx c).length]? := by
    rw [← head?_filter,pollingOrder_eq,filter_rotate_range (startAt_lt hkeys).le,← enabledIdx,
      head?_eq_getElem?,getElem?_rotate hpos,Nat.zero_add]
  rw [hfind]
  exact ⟨_,getElem?_eq_getElem (Nat.mod_lt _ hpos),getElem?_eq_getElem (Nat.mod_lt _ hpos)⟩

lemma getNextEnabledKey_polling (hpol : Polls c.channelInfo) (h : enabledIdx c ≠ [])
    (hfind : (pollingOrder c.keys saved).find? (fun i => keyStatus c.channelInfo i = .enabled) = some idx)
    (rot : Rotation) : getNextEnabledKey c key { rot with cached := some saved } =
      ⟨{ c with channelInfo := { c.channelInfo with multiKeyPollingIndex := (idx+1)%c.keys.length } },rot.cursor,
        .ok (c.keys.getD idx "",idx)⟩ := by
  obtain ⟨hmulti,hmode⟩ : c.channelInfo.isMultiKey ∧ c.channelInfo.multiKeyMode = .polling := by
    simpa [Polls] using hpol
  have hkeys : c.keys ≠ [] := by
    intro hnil
    simp [enabledIdx,hnil] at h
  obtain ⟨first,rest,henabled⟩ := exists_cons_of_ne_nil h
  simp [getNextEnabledKey,hmulti,hkeys,henabled,hmode,hfind]

lemma SamePool.setIndex (h : SamePool c c') :
    SamePool c { c' with channelInfo := { c'.channelInfo with multiKeyPollingIndex := pos } } :=
  ⟨h.keys,h.enabled,h.polls⟩

lemma Points.nextKey (h : Points c cache r) (hne : enabledIdx c ≠ []) (key : String) (rot : Rotation) :
    (nextCachedKey cache c.id key rot).2 = some (entry c r) ∧ Points c (nextCachedKey cache c.id key rot).1 (r+1) := by
  obtain ⟨c',hget,hsame,hrank⟩ := h
  have hne' : enabledIdx c' ≠ [] := by rwa [hsame.enabled]
  obtain ⟨idx,hfind,hidx⟩ := find_pollingOrder hne'
  rw [hsame.enabled,hsame.keys,hrank] at hidx
  have hnext : nextCachedKey cache c.id key rot = ({ cache with channelsIDM := cache.channelsIDM.modify c.id fun x =>
      { x with channelInfo := { c'.channelInfo with multiKeyPollingIndex := (idx+1)%c'.keys.length } } },
      some (.ok (c'.keys.getD idx "",idx))) := by
    simp [nextCachedKey,cacheGetChannelInfo,hget,getNextEnabledKey_polling hsame.polls hne' hfind]
  rw [hnext]
  constructor
  · simp [entry,hidx,hsame.keys]
  · refine ⟨{ c' with channelInfo := { c'.channelInfo with multiKeyPollingIndex := (idx+1)%c'.keys.length } },?_,
      hsame.setIndex,?_⟩
    · simp [hget]
    · have hpos : 0 < c.keys.length := by
        obtain ⟨i,hi⟩ := exists_mem_of_ne_nil _ hne
        exact Nat.zero_lt_of_lt (mem_enabledIdx.mp hi).1
      have hstart : startAt c.keys.length (((idx+1)%c.keys.length : ℕ) : ℤ) = (idx+1)%c.keys.length :=
        startAt_natCast (Nat.mod_lt _ hpos)
      have hcast : (((idx : ℤ)+1)%c'.keys.length) = (((idx+1)%c.keys.length : ℕ) : ℤ) := by
        rw [hsame.keys]
        rfl
      simp only [hcast,hstart]
      rw [rank_next hidx,Nat.mod_add_mod]

lemma Points.nextKey_other (h : Points c cache r) {id : ℤ} (hid : id ≠ c.id) :
    Points c (nextCachedKey cache id key rot).1 r := by
  obtain ⟨c',hget,hsame,hrank⟩ := h
  refine ⟨c',?_,hsame,hrank⟩
  rw [nextCachedKey]
  cases hother : cache.channelsIDM.get? id with
  | none => exact hget
  | some other =>
    rw [get?_modify_of_ne _ _ _ (Ne.symm hid),hget]

lemma Points.rebuild (h : Points c cache r)
    (hkeeps : KeepsPool c (.rebuild chans paused)) : Points c (rebuildOver cache chans paused) r := by
  obtain ⟨c',hget,hsame,hrank⟩ := h
  obtain ⟨d,hd,hpool⟩ := hkeeps
  have hid : d.id = c.id := key_of_get? hd
  have hcarried : carried cache d = { d with channelInfo := { d.channelInfo with
      multiKeyPollingIndex := c'.channelInfo.multiKeyPollingIndex } } := by
    have hcar : carryOverPollingIndices cache d.id = some c'.channelInfo.multiKeyPollingIndex := by
      simp [carryOverPollingIndices,cacheGetChannelInfo,hid,hget,hsame.polls]
    rw [carried,if_pos hpool.polls,hcar]
    rfl
  refine ⟨carried cache d,?_,?_,?_⟩
  · rw [rebuildOver,get?_updateWhere,hd]
    rfl
  · rw [hcarried]
    exact hpool.setIndex
  · rw [hcarried]
    exact hrank

/-! Whole runs. -/

lemma points_cached (hcached : cache.channelsIDM.get? c.id = some c) (hpol : Polls c.channelInfo) :
    Points c cache (rank (enabledIdx c) (startAt c.keys.length c.channelInfo.multiKeyPollingIndex)) :=
  ⟨c,hcached,⟨rfl,rfl,hpol⟩,rfl⟩

lemma Points.answers_eq (h : Points c cache r) (hne : enabledIdx c ≠ [])
    (hkeeps : ∀ e ∈ events, KeepsPool c e) :
    answers c.id cache events = (range (events.countP (Event.calls c.id))).map fun j => entry c (r+j) := by
  induction events generalizing cache r with
  | nil => rfl
  | cons e events ih =>
    obtain ⟨he,hrest⟩ := forall_mem_cons.mp hkeeps
    cases e with
    | nextKey id key rot =>
      by_cases hid : id = c.id
      · subst hid
        obtain ⟨hans,hpoi⟩ := h.nextKey hne key rot
        rw [answers,step,ih hpoi hrest,countP_cons_of_pos (by simp [Event.calls]),range_succ_eq_map]
        simp [answer,hans,Nat.add_assoc,Nat.add_comm 1]
      · rw [answers,step,ih (h.nextKey_other hid) hrest,countP_cons_of_neg (by simp [Event.calls,hid])]
        simp [answer,hid]
    | rebuild channels paused =>
      rw [answers,step,ih (h.rebuild he) hrest,countP_cons_of_neg (by simp [Event.calls])]
      simp [answer]

theorem window_eq_rotate
    (h : (range m).map (fun j => entry c (r+j)) = before++window++after) (hlen : window.length = (enabledIdx c).length) :
    window = ((enabledIdx c).rotate (r+before.length)).map fun idx => .ok (c.keys.getD idx "",idx) := by
  refine ext_getElem (by simpa using hlen) fun t ht _ => ?_
  have hentry : window[t] = entry c (r+(before.length+t)) := by
    have hget := congrArg (·[before.length+t]?) h
    have hm : before.length+t < m := by
      have hsum := congrArg length h
      simp only [length_map,length_range,length_append] at hsum
      omega
    simp only [getElem?_map,getElem?_range hm,append_assoc,
      getElem?_append_right (Nat.le_add_right _ t),Nat.add_sub_cancel_left,getElem?_append_left ht,
      getElem?_eq_getElem ht] at hget
    exact (Option.some.inj hget).symm
  have hlt : (t+(r+before.length))%(enabledIdx c).length < (enabledIdx c).length := Nat.mod_lt _ (by omega)
  have hsum : r+(before.length+t) = t+(r+before.length) := by omega
  rw [hentry,hsum]
  simp only [entry,getElem_map,getElem_rotate,getD_eq_getElem _ _ hlt]

/-- As many calls in a row as there are enabled keys take each once, in cyclic order. -/
theorem polling_fair (cache : Cache) (c : Channel) (events : List Event) (hcached : cache.channelsIDM.get? c.id = some c)
    (hpolls : Polls c.channelInfo = true) (hne : enabledIdx c ≠ [])
    (hkeeps : ∀ e ∈ events, KeepsPool c e) :
    (answers c.id cache events).length = events.countP (Event.calls c.id) ∧
    (∀ a ∈ answers c.id cache events, ∃ idx ∈ enabledIdx c, a = .ok (c.keys.getD idx "",idx)) ∧
    ∀ before window after, answers c.id cache events = before++window++after → window.length = (enabledIdx c).length →
      ∃ first, window = ((enabledIdx c).rotate first).map fun idx => .ok (c.keys.getD idx "",idx) := by
  have hanswers := (points_cached hcached hpolls).answers_eq hne hkeeps
  refine ⟨by rw [hanswers]; simp,fun a ha => ?_,fun before window after hsplit hlen => ?_⟩
  · rw [hanswers] at ha
    obtain ⟨j,-,rfl⟩ := mem_map.mp ha
    have hlt := Nat.mod_lt (rank (enabledIdx c) (startAt c.keys.length c.channelInfo.multiKeyPollingIndex)+j)
      (length_pos_of_ne_nil hne)
    exact ⟨_,getD_eq_getElem _ _ hlt ▸ getElem_mem hlt,rfl⟩
  · rw [hanswers] at hsplit
    exact ⟨_,window_eq_rotate hsplit hlen⟩

def threeKeys : Channel where
  id := 4
  keys := ["a","b","c"]
  models := ["gpt-4"]
  group := ["default"]
  channelInfo := { isMultiKey := true, multiKeySize := 3, multiKeyMode := .polling, multiKeyPollingIndex := 7,
                   multiKeyStatusList := empty.put (1,.manuallyDisabled) }

def threeKeysTable : Channels := empty.put threeKeys

def threeKeysRun : List Event := [.nextKey 4 "" {},.rebuild threeKeysTable (fun _ _ => false),.nextKey 4 "" {}]

theorem polling_fair_threeKeys : enabledIdx threeKeys = [0,2] ∧
    (answers 4 (rebuildChannelCache threeKeysTable fun _ _ => false) threeKeysRun).length = 2 ∧
    ∃ first, answers 4 (rebuildChannelCache threeKeysTable fun _ _ => false) threeKeysRun =
      ((enabledIdx threeKeys).rotate first).map fun idx => .ok (threeKeys.keys.getD idx "",idx) := by
  have hfair := polling_fair (rebuildChannelCache threeKeysTable fun _ _ => false) threeKeys threeKeysRun rfl rfl (by decide) (by
      simp only [threeKeysRun,forall_mem_cons,not_mem_nil,false_implies,implies_true,and_true,KeepsPool,true_and]
      exact ⟨threeKeys,rfl,rfl,rfl,rfl⟩)
  exact ⟨by decide,hfair.1,hfair.2.2 [] _ [] (append_nil _).symm hfair.1⟩

end LurusHub.Polling
