import LurusHub.KeyPool

/-! A key that an administrator has disabled. No other writer brings it back, but the reaper goes by
the deadline alone, so it enables a disabled key that has one. -/
namespace LurusHub.KeyPool
open ChannelCache Transition KeyedTable WeightedRotation List

/-! Which keys can be picked. -/

/-- The key exists and, in weighted mode, has weight. -/
def Selectable (channel : Channel) (idx : ℕ) : Prop :=
  idx < channel.keys.length ∧ (channel.channelInfo.multiKeyMode = .weighted → 0 < keyWeight channel.channelInfo idx)

def Routable (channel : Channel) (idx : ℕ) : Prop :=
  Selectable channel idx ∧ keyStatus channel.channelInfo idx = .enabled

lemma mem_enabledIdx : idx ∈ enabledIdx ch ↔ idx < ch.keys.length ∧ keyStatus ch.channelInfo idx = .enabled := by
  simp [enabledIdx]

lemma keyIfRoutable_eq_none (h : ch.channelInfo.isMultiKey) :
    keyIfRoutable ch idx = none ↔ ¬Routable ch idx := by
  by_cases hlt : idx < ch.keys.length
  · simp only [keyIfRoutable,Routable,Selectable]
    split_ifs with hstatus hweight <;> simp_all
  · simp [keyIfRoutable,Routable,Selectable,hlt]

lemma nodup_enabledIdx (ch : Channel) : ((enabledIdx ch).map (Nat.cast : ℕ → ℤ)).Nodup :=
  (nodup_range.filter _).map Nat.cast_injective

lemma pollingOrder_lt {keys : List String} (h : idx ∈ pollingOrder keys saved) : idx < keys.length := by
  simp only [pollingOrder,mem_map,mem_range] at h
  obtain ⟨i,hi,rfl⟩ := h
  exact Nat.mod_lt _ (by omega)

lemma getNextEnabledKey_routable (h : channel.channelInfo.isMultiKey)
    (hok : (getNextEnabledKey channel key rot).result = .ok (key',idx)) : Routable channel idx := by
  have hof : ∀ i ∈ enabledIdx channel, channel.channelInfo.multiKeyMode ≠ .weighted → Routable channel i := by
    intro i hi hmode
    obtain ⟨hlt,hstatus⟩ := mem_enabledIdx.mp hi
    exact ⟨⟨hlt,fun hw => absurd hw hmode⟩,hstatus⟩
  rw [getNextEnabledKey,if_neg (by simp [h])] at hok
  split at hok
  · cases hok
  · split at hok
    · cases hok
    · next first rest henabled =>
      have hfirst : first ∈ enabledIdx channel := by
        rw [henabled]
        exact mem_cons_self
      split at hok
      · next hmode =>
        cases hok
        refine hof _ ?_ (by simp [hmode])
        rw [getD_eq_getElem _ _ (Nat.mod_lt _ (length_pos_of_mem hfirst))]
        exact getElem_mem _
      · split at hok
        · cases hok
        · next hnext =>
          cases hok
          obtain ⟨hmem,hweight⟩ := nextWeighted_mem (nodup_enabledIdx channel) hnext
          obtain ⟨i,hi,rfl⟩ := mem_map.mp hmem
          obtain ⟨hlt,hstatus⟩ := mem_enabledIdx.mp hi
          exact ⟨⟨hlt,fun _ => hweight⟩,hstatus⟩
      · next hmode =>
        split at hok
        · cases hok
        · split at hok
          · next hfind =>
            cases hok
            have hlt := pollingOrder_lt (mem_of_find?_eq_some hfind)
            exact hof _ (mem_enabledIdx.mpr ⟨hlt,by simpa using find?_some hfind⟩) (by simp [hmode])
          · cases hok
            exact hof _ hfirst (by simp [hmode])
      · next hmode =>
        cases hok
        exact hof _ hfirst (by simp [hmode])

/-- No pick returns the key of the index. -/
def KeyOff (idx : ℕ) (channel : Channel) : Prop :=
  (∀ key rot key', (getNextEnabledKey channel key rot).result ≠ .ok (key',idx)) ∧ keyIfRoutable channel idx = none

lemma keyOff_iff (h : ch.channelInfo.isMultiKey) : KeyOff idx ch ↔ ¬Routable ch idx := by
  refine ⟨fun hoff => (keyIfRoutable_eq_none h).mp hoff.2,fun hno => ⟨fun key rot key' hok => ?_,?_⟩⟩
  · exact hno (getNextEnabledKey_routable h hok)
  · exact (keyIfRoutable_eq_none h).mpr hno

/-! The status of a key after each writer. -/

structure Same (c d : Channel) : Prop where
  keys : d.keys = c.keys
  isMultiKey : d.channelInfo.isMultiKey = c.channelInfo.isMultiKey
  mode : d.channelInfo.multiKeyMode = c.channelInfo.multiKeyMode
  weights : d.channelInfo.multiKeyWeight = c.channelInfo.multiKeyWeight

lemma Same.selectable (h : Same c d) : Selectable d idx ↔ Selectable c idx := by
  simp only [Selectable,keyWeight,h.keys,h.mode,h.weights]

lemma foldl_clear_info (indices : List ℕ) (info : ChannelInfo) :
    let after := indices.foldl clearMultiKeyCooldown info
    after.isMultiKey = info.isMultiKey ∧ after.multiKeyMode = info.multiKeyMode ∧ after.multiKeyWeight = info.multiKeyWeight := by
  induction indices generalizing info with
  | nil => exact ⟨rfl,rfl,rfl⟩
  | cons i indices ih => exact ih (clearMultiKeyCooldown info i)

lemma foldl_clear_status (indices : List ℕ) :
    keyStatus (indices.foldl clearMultiKeyCooldown info) idx = if idx ∈ indices then .enabled else keyStatus info idx := by
  induction indices generalizing info with
  | nil => simp
  | cons i indices ih =>
    have hone : keyStatus (clearMultiKeyCooldown info i) idx = if idx = i then .enabled else keyStatus info idx := by
      simp only [keyStatus,clearMultiKeyCooldown,get?_delete]
      split <;> rfl
    rw [foldl_cons,ih,hone]
    by_cases hi : idx = i <;> by_cases hmem : idx ∈ indices <;> simp [hi]

lemma mem_expired :
    idx ∈ expired info now ↔ ∃ u, info.multiKeyCooldownUntil.get? idx = some (idx,u) ∧ 0 < u ∧ u ≤ now := by
  simp only [expired,mem_map,mem_filter,decide_eq_true_eq]
  constructor
  · rintro ⟨⟨i,u⟩,⟨hrow,hu⟩,rfl⟩
    exact ⟨u,get?_of_mem hrow,hu⟩
  · rintro ⟨u,hget,hu⟩
    exact ⟨(idx,u),⟨mem_of_get? hget,hu⟩,rfl⟩

lemma reapChannel_same (now : ℤ) (c : Channel) : Same c (reapChannel now c).1 := by
  unfold reapChannel
  split
  · exact ⟨rfl,rfl,rfl,rfl⟩
  · split
    · exact ⟨rfl,rfl,rfl,rfl⟩
    · obtain ⟨hmulti,hmode,hwei⟩ := foldl_clear_info (expired c.channelInfo now) c.channelInfo
      exact ⟨rfl,hmulti,hmode,hwei⟩

lemma reapChannel_status (h : c.channelInfo.isMultiKey) :
    keyStatus (reapChannel now c).1.channelInfo idx =
      if idx ∈ expired c.channelInfo now then .enabled else keyStatus c.channelInfo idx := by
  unfold reapChannel
  rw [if_neg (by simp [h])]
  split
  · next hnil => simp [hnil]
  · exact foldl_clear_status _

structure EnablesNone (c d : Channel) : Prop extends Same c d where
  status : ∀ {idx}, keyStatus c.channelInfo idx ≠ .enabled → keyStatus d.channelInfo idx ≠ .enabled

lemma park_enablesNone (k : String) (till : ℤ) (keep : Bool) (c : Channel) :
    EnablesNone c (applyMultiKeyCooldownOpt k till keep c).1 := by
  have hpark : ∀ index {idx}, keyStatus c.channelInfo idx ≠ .enabled →
    keyStatus (parkKey c.channelInfo index till) idx ≠ .enabled := by
    intro index idx h
    simp only [keyStatus,parkKey,get?_put]
    split
    · simp
    · exact h
  unfold applyMultiKeyCooldownOpt
  split
  · exact ⟨⟨rfl,rfl,rfl,rfl⟩,id⟩
  · dsimp only
    split <;> exact ⟨⟨rfl,rfl,rfl,rfl⟩,hpark _⟩

lemma autoDisable_enablesNone : EnablesNone c (handlerMultiKeyUpdate k .autoDisabled c) := by
  unfold handlerMultiKeyUpdate
  by_cases hkeys : c.keys = []
  · simp only [hkeys,if_true]
    exact ⟨⟨hkeys.symm,rfl,rfl,rfl⟩,id⟩
  · simp only [hkeys,if_false,keyStatuses,reduceCtorEq]
    refine ⟨⟨rfl,rfl,rfl,rfl⟩,fun h => ?_⟩
    simp only [keyStatus,get?_put]
    split
    · simp
    · exact h

lemma disableKey_spec {keyIndex : Option ℤ} (h : disableKey keyIndex c = .ok d) :
    c.channelInfo.isMultiKey ∧ Same c d ∧ ∃ i : ℕ, keyIndex = some (i : ℤ) ∧ ∀ idx < c.keys.length,
      keyStatus d.channelInfo idx = if idx = i then .manuallyDisabled else keyStatus c.channelInfo idx := by
  unfold disableKey at h
  split at h
  · cases h
  · next hmulti =>
    split at h
    · cases h
    · next keyIndex =>
      split at h
      · cases h
      · next hran =>
        cases h
        have hm : c.channelInfo.isMultiKey := by simpa using hmulti
        refine ⟨hm,?_⟩
        simp only [update,hm,if_true]
        refine ⟨⟨rfl,hm.symm ▸ rfl,rfl,rfl⟩,keyIndex.toNat,by rw [Int.toNat_of_nonneg (by omega)],fun idx hidx => ?_⟩
        simp only [keyStatus,get?_deleteWhere,get?_put]
        split
        · next hi => simp [← hi,Option.filter,hidx]
        · cases hget : c.channelInfo.multiKeyStatusList.get? idx with
          | none => rfl
          | some row =>
            have hrow : row.1 = idx := key_of_get? hget
            simp [Option.filter,hrow,hidx]

/-! Runs. -/

/-- A reaper pass does not find the deadline of a selectable key passed. -/
def Spares (idx : ℕ) (channel : Channel) : Act → Prop
  | .reap now => Selectable channel idx → ∀ u, channel.channelInfo.multiKeyCooldownUntil.get? idx = some (idx,u) →
    0 < u → now < u
  | _ => True

structure Off (idx : ℕ) (channel : Channel) : Prop where
  isMultiKey : channel.channelInfo.isMultiKey = true
  status : Selectable channel idx → keyStatus channel.channelInfo idx ≠ .enabled

lemma Off.keyOff (h : Off idx c) : KeyOff idx c :=
  (keyOff_iff h.isMultiKey).mpr fun hrou => h.status hrou.1 hrou.2

lemma Off.of_same (h : Off idx c) (hsame : Same c d)
    (hstatus : Selectable c idx → keyStatus c.channelInfo idx ≠ .enabled → keyStatus d.channelInfo idx ≠ .enabled) :
    Off idx d := by
  refine ⟨hsame.isMultiKey.trans h.isMultiKey,fun hsel => ?_⟩
  have hsel' := hsame.selectable.mp hsel
  exact hstatus hsel' (h.status hsel')

lemma Off.of_enablesNone (h : Off idx c) (hd : EnablesNone c d) : Off idx d := h.of_same hd.toSame fun _ => hd.status

lemma off_step (h : Off idx c) (hspa : Spares idx c act) : Off idx (step c act) := by
  cases act with
  | park => exact h.of_enablesNone (park_enablesNone ..)
  | autoDisable => exact h.of_enablesNone autoDisable_enablesNone
  | reap now =>
    refine h.of_same (reapChannel_same now c) fun hsel hs => ?_
    have hno : idx ∉ expired c.channelInfo now := by
      intro hmem
      obtain ⟨u,hget,hpos,hle⟩ := mem_expired.mp hmem
      exact absurd (hspa hsel u hget hpos) (by omega)
    change keyStatus (reapChannel now c).1.channelInfo idx ≠ _
    rwa [reapChannel_status h.isMultiKey,if_neg hno]
  | disableKey keyIndex =>
    simp only [step]
    cases hd : disableKey keyIndex c with
    | error e => exact h
    | ok d =>
      obtain ⟨_,hsame,i,_,hstatus⟩ := disableKey_spec hd
      refine h.of_same hsame fun hsel hs => ?_
      change keyStatus d.channelInfo idx ≠ _
      rw [hstatus idx hsel.1]
      split
      · simp
      · exact hs

lemma reaped_on (h : Off idx c) (hno : ¬Spares idx c act) : ¬KeyOff idx (step c act) := by
  cases act with
  | reap now =>
    obtain ⟨hsel,u,hget,hpos,hle⟩ : Selectable c idx ∧ ∃ u, c.channelInfo.multiKeyCooldownUntil.get? idx = some (idx,u) ∧
        0 < u ∧ u ≤ now := by
      simpa [Spares] using hno
    have hsame := reapChannel_same now c
    change ¬KeyOff idx (reapChannel now c).1
    rw [keyOff_iff (hsame.isMultiKey.trans h.isMultiKey),not_not]
    refine ⟨hsame.selectable.mpr hsel,?_⟩
    rw [reapChannel_status h.isMultiKey,if_pos (mem_expired.mpr ⟨u,hget,hpos,hle⟩)]
  | park | autoDisable | disableKey => exact absurd trivial hno

/-- A disabled key stays off until a reaper pass finds a deadline of it passed. -/
theorem disabled_key_stays_off_iff (c : Channel) (idx : ℕ) (d : Channel) (h : disableKey (some idx) c = .ok d) (acts : List Act) :
    Always step (KeyOff idx) d acts ↔ Along step (Spares idx) d acts := by
  obtain ⟨hmulti,hsame,i,hi,hstatus⟩ := disableKey_spec h
  obtain rfl : idx = i := by simpa using hi
  have hoff : Off idx d := by
    refine ⟨hsame.isMultiKey.trans hmulti,fun hsel => ?_⟩
    rw [hstatus idx (hsame.selectable.mp hsel).1]
    simp
  exact always_iff_along_of_invariant (fun s act hs => off_step hs) (fun s hs => hs.keyOff)
    (fun s act hs hno => reaped_on hs hno) acts hoff

def twoKeys : Channel where
  id := 1
  models := ["m"]
  group := ["default"]
  keys := ["a","b"]
  channelInfo := { isMultiKey := true, multiKeySize := 2 }

theorem disabled_key_reaped :
    let before := run step twoKeys [.park "a" 100 false,.disableKey (some 0),.reap 100]
    let after := run step twoKeys [.disableKey (some 0),.park "a" 100 false,.reap 100]
    (getNextEnabledKey before "" {}).result = .ok ("a",0) ∧ keyIfRoutable before 0 = some "a" ∧
      (getNextEnabledKey after "" {}).result = .ok ("a",0) ∧ keyIfRoutable after 0 = some "a" := by
  decide

theorem disabled_key_without_deadline_stays_off :
    let off := run step twoKeys [.disableKey (some 0)]
    Always step (KeyOff 0) off [.park "b" 100 false,.autoDisable "a",.reap 100] := by
  refine (disabled_key_stays_off_iff twoKeys 0 _ rfl _).mpr ⟨trivial,trivial,?_,trivial⟩
  intro _ u hu
  cases hu

end LurusHub.KeyPool
