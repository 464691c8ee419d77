import Mathlib.Data.List.Sigma
import LurusHub.Compaction
import LurusHub.KeyPool
import LurusHub.PlanGrant

/-! Deleting keys of a multi-key channel. What is known of each key is kept in seven maps by its
index, and a deletion moves the later indices; the two operations build three of the maps anew and
leave the other four. -/
namespace LurusHub.KeyDeletion
open ChannelCache KeyPool Compaction KeyedTable
open List hiding after keys
open PlanGrant (trimSpace)

/-! The row of a channel. -/

abbrev KeyMap (α : Type) := KeyedTable (ℕ × α) ℕ Prod.fst

def KeyMap.at? {α : Type} (m : KeyMap α) (idx : ℕ) : Option α := (m.get? idx).map Prod.snd

structure KeyMeta where
  name : String := ""
  planKind : String := ""
  expiresAt : ℤ := 0
  tags : List String := []
  deriving DecidableEq

structure PoolInfo extends ChannelInfo where
  multiKeyDisabledReason : KeyMap String := .empty
  multiKeyDisabledTime : KeyMap ℤ := .empty
  multiKeyProxy : KeyMap String := .empty
  multiKeyMeta : KeyMap KeyMeta := .empty

structure Row where
  key : String
  channelInfo : PoolInfo

structure Env where
  unmarshal : String → Option (List String)
  granted : Bool := true
  reread : Bool := true
  updatesError : Option String := none
  abilitiesError : Option String := none

/-! The key column. -/

def trimLines (text : List Char) : List Char :=
  ((text.dropWhile (· = '\n')).reverse.dropWhile (· = '\n')).reverse

def splitLines (text : String) : List String := ((trimLines text.toList).splitOn '\n').map String.ofList

def joinLines (keys : List String) : String := String.ofList (['\n'].intercalate (keys.map String.toList))

def jsonKeys (env : Env) (text : String) : Option (List String) :=
  let trimmed := trimSpace text
  if trimmed.toList.head? = some '[' then env.unmarshal trimmed else none

def getKeys (env : Env) (key : String) : List String :=
  if key = "" then []
  else match jsonKeys env key with
    | some arr => arr
    | none => splitLines key

/-- `Update` reads the column by itself; an empty array counts as a line. -/
def countKeys (env : Env) (keyStr : String) : ℕ :=
  if keyStr = "" then 0
  else match jsonKeys env keyStr with
    | some (v::arr) => (v::arr).length
    | _ => (splitLines keyStr).length

/-- An empty key is not written; the statuses beyond the size are dropped. -/
def update (env : Env) (stored channel : Row) : Row × Except String Unit :=
  let info :=
    if channel.channelInfo.isMultiKey then
      let keyStr := if channel.key ≠ "" then channel.key else if env.reread then stored.key else ""
      { channel.channelInfo with
        multiKeySize := countKeys env keyStr
        multiKeyStatusList :=
          channel.channelInfo.multiKeyStatusList.deleteWhere fun row => countKeys env keyStr ≤ row.1 }
    else channel.channelInfo
  match env.updatesError with
  | some err => (stored,.error err)
  | none =>
    (⟨if channel.key = "" then stored.key else channel.key,info⟩,
      match env.abilitiesError with
      | some err => .error err
      | none => .ok ())

/-! The loops over the keys. -/

structure Rebuilt where
  newIndex : ℕ := 0
  remainingKeys : List String := []
  newStatusList : KeyMap ChannelStatus := .empty
  newDisabledTime : KeyMap ℤ := .empty
  newDisabledReason : KeyMap String := .empty
  deletedCount : ℕ := 0

def putSome {α : Type} (m : KeyMap α) (idx : ℕ) : Option α → KeyMap α
  | none => m
  | some a => m.put (idx,a)

section Rebuild
variable (kept : ℕ → Bool) (status : ℕ → Option ChannelStatus) (time : ℕ → Option ℤ) (reason : ℕ → Option String)

/-- One key: it is dropped, or it goes to the next index with what is carried over for it. -/
def rebuildStep (acc : Rebuilt) (key : String × ℕ) : Rebuilt :=
  if kept key.2 then
    { acc with
      newIndex := acc.newIndex+1
      remainingKeys := acc.remainingKeys++[key.1]
      newStatusList := putSome acc.newStatusList acc.newIndex (status key.2)
      newDisabledTime := putSome acc.newDisabledTime acc.newIndex (time key.2)
      newDisabledReason := putSome acc.newDisabledReason acc.newIndex (reason key.2) }
  else { acc with deletedCount := acc.deletedCount+1 }

def rebuild (keys : List String) : Rebuilt := keys.zipIdx.foldl (rebuildStep kept status time reason) {}

end Rebuild

inductive Operation
  | deleteKey (keyIndex : Option ℤ)
  | deleteDisabledKeys

def kept (info : PoolInfo) : Operation → ℕ → Bool
  | .deleteKey keyIndex,i => keyIndex ≠ some (i : ℤ)
  | .deleteDisabledKeys,i => keyStatus info.toChannelInfo i ≠ .autoDisabled

/-- Only the first operation carries over the time and the reason of a key that is enabled again. -/
def rebuiltFor (info : PoolInfo) (op : Operation) (keys : List String) : Rebuilt :=
  match op with
  | .deleteKey _ =>
    rebuild (kept info op) (fun i => (KeyMap.at? info.multiKeyStatusList i).filter (· ≠ .enabled))
      (KeyMap.at? info.multiKeyDisabledTime) (KeyMap.at? info.multiKeyDisabledReason) keys
  | .deleteDisabledKeys =>
    let disabled := fun i => decide (keyStatus info.toChannelInfo i ≠ .enabled)
    rebuild (kept info op) (fun i => if disabled i then some (keyStatus info.toChannelInfo i) else none)
      (fun i => if disabled i then KeyMap.at? info.multiKeyDisabledTime i else none)
      (fun i => if disabled i then KeyMap.at? info.multiKeyDisabledReason i else none) keys

def edited (row : Row) (built : Rebuilt) : Row where
  key := joinLines built.remainingKeys
  channelInfo := { row.channelInfo with
    multiKeySize := built.remainingKeys.length
    multiKeyStatusList := built.newStatusList
    multiKeyDisabledTime := built.newDisabledTime
    multiKeyDisabledReason := built.newDisabledReason }

def save (env : Env) (row : Row) (built : Rebuilt) (message : String) : Row × Except String String :=
  let (row',result) := update env row (edited row built)
  (row',result.map fun _ => message)

/-- `delete_key` and `delete_disabled_keys` of ManageMultiKeys: the row afterwards and the answer. -/
def manageMultiKeys (env : Env) (op : Operation) (row : Row) : Row × Except String String :=
  let built := rebuiltFor row.channelInfo op (getKeys env row.key)
  if row.channelInfo.isMultiKey = false then (row,.error "该渠道不是多密钥模式")
  else if env.granted = false then (row,.error "insufficient permission")
  else match op with
    | .deleteKey none => (row,.error "未指定要删除的密钥索引")
    | .deleteKey (some keyIndex) =>
      if keyIndex < 0 ∨ row.channelInfo.multiKeySize ≤ keyIndex then (row,.error "密钥索引超出范围")
      else if built.remainingKeys = [] then (row,.error "不能删除最后一个密钥")
      else save env row built "密钥已删除"
    | .deleteDisabledKeys =>
      if built.deletedCount = 0 then (row,.error "没有需要删除的自动禁用密钥")
      else save env row built ("已删除 "++toString built.deletedCount++" 个自动禁用的密钥")

/-! What the loops build. -/

section
variable {α : Type}

lemma at?_put : KeyMap.at? (m.put (i,a)) idx = if idx = i then some a else KeyMap.at? m idx := by
  rw [KeyMap.at?,get?_put]
  split <;> rfl

lemma at?_putSome (hfree : KeyMap.at? m i = none) :
    KeyMap.at? (putSome m i a) idx = if idx = i then a else KeyMap.at? m idx := by
  cases a with
  | none =>
    split
    · next h => rw [h]; exact hfree
    · rfl
  | some a => exact at?_put

def survivorsOf (kept : ℕ → Bool) (keys : List String) : List (String × ℕ) := keys.zipIdx.filter fun key => kept key.2

lemma survivorsOf_snoc (kept : ℕ → Bool) :
    survivorsOf kept (keys++[key]) = survivorsOf kept keys++if kept keys.length then [(key,keys.length)] else [] := by
  simp [survivorsOf,zipIdx_append,filter_singleton]

lemma map_snd_survivorsOf (kept : ℕ → Bool) :
    (survivorsOf kept keys).map Prod.snd = positions kept keys.length := by
  have hcomp : (fun key : String × ℕ => kept key.2) = kept ∘ Prod.snd := rfl
  rw [survivorsOf,hcomp,← filter_map,positions,zipIdx_map_snd,range_eq_range']

/-- What a map built for the kept keys has: at a new index what was picked at the old one. -/
def Carries (pick : ℕ → Option α) (survivors : List (String × ℕ)) (m : KeyMap α) : Prop :=
  ∀ p, KeyMap.at? m p = (survivors[p]?).bind fun key => pick key.2

lemma Carries.snoc (h : Carries pick survivors m) (key : String × ℕ) :
    Carries pick (survivors++[key]) (putSome m survivors.length (pick key.2)) := by
  intro p
  have hfree : KeyMap.at? m survivors.length = none := by simp [h survivors.length]
  rw [at?_putSome hfree,h p]
  split
  · next hp => simp [hp]
  · next hp =>
    rcases Nat.lt_or_ge p survivors.length with hlt | hge
    · rw [getElem?_append_left hlt]
    · rw [getElem?_eq_none hge,getElem?_eq_none (by simp; omega)]

structure Rebuilt.Spec (status : ℕ → Option ChannelStatus) (time : ℕ → Option ℤ) (reason : ℕ → Option String)
    (survivors : List (String × ℕ)) (total : ℕ) (built : Rebuilt) : Prop where
  newIndex : built.newIndex = survivors.length
  remainingKeys : built.remainingKeys = survivors.map Prod.fst
  newStatusList : Carries status survivors built.newStatusList
  newDisabledTime : Carries time survivors built.newDisabledTime
  newDisabledReason : Carries reason survivors built.newDisabledReason
  deletedCount : built.deletedCount+survivors.length = total

lemma Rebuilt.Spec.step {kept : ℕ → Bool}
    (h : built.Spec status time reason (survivorsOf kept keys) keys.length) (key : String) :
    (rebuildStep kept status time reason built (key,keys.length)).Spec status time reason
      (survivorsOf kept (keys++[key])) (keys.length+1) := by
  obtain ⟨hindex,hkeys,hstatus,htime,hreason,hcount⟩ := h
  rw [survivorsOf_snoc,rebuildStep]
  split
  · rw [hindex]
    exact ⟨by simp,by simp [hkeys],hstatus.snoc _,htime.snoc _,hreason.snoc _,by simp; omega⟩
  · rw [append_nil]
    exact ⟨hindex,hkeys,hstatus,htime,hreason,by simp only; omega⟩

lemma rebuild_spec (kept : ℕ → Bool) :
    (rebuild kept status time reason keys).Spec status time reason (survivorsOf kept keys) keys.length := by
  induction keys using reverseRecOn with
  | nil => exact ⟨rfl,rfl,fun _ => rfl,fun _ => rfl,fun _ => rfl,rfl⟩
  | append_singleton keys key ih =>
    have hfold : rebuild kept status time reason (keys++[key])
        = rebuildStep kept status time reason (rebuild kept status time reason keys) (key,keys.length) := by
      simp [rebuild,zipIdx_append]
    rw [hfold,length_append]
    exact ih.step key

lemma rebuiltFor_spec (info : PoolInfo) (op : Operation) (keys : List String) :
    ∃ status time reason, (rebuiltFor info op keys).Spec status time reason
    (survivorsOf (kept info op) keys) keys.length ∧
      ∀ i, (status i).getD .enabled = keyStatus info.toChannelInfo i := by
  cases op with
  | deleteKey keyIndex =>
    refine ⟨_,_,_,rebuild_spec _,fun i => ?_⟩
    change _ = (KeyMap.at? info.multiKeyStatusList i).getD .enabled
    cases KeyMap.at? info.multiKeyStatusList i with
    | none => rfl
    | some status => cases status <;> rfl
  | deleteDisabledKeys =>
    refine ⟨_,_,_,rebuild_spec _,fun i => ?_⟩
    by_cases h : keyStatus info.toChannelInfo i = .enabled <;> simp [h]

end

/-! What a deletion ought to leave. -/

section
variable {α : Type}

def Below (n : ℕ) (m : KeyMap α) : Prop := ∀ idx, n ≤ idx → KeyMap.at? m idx = none

/-- Each key that is left finds at its new index what it had at the old one. -/
def Moved (survivors : List (String × ℕ)) (before after : KeyMap α) : Prop :=
  ∀ p key j, survivors[p]? = some (key,j) → KeyMap.at? after p = KeyMap.at? before j

lemma getElem?_survivorsOf (kept : ℕ → Bool) (p : ℕ) :
    (positions kept keys.length)[p]? = ((survivorsOf kept keys)[p]?).map Prod.snd := by
  rw [← map_snd_survivorsOf,getElem?_map]

lemma length_survivorsOf (kept : ℕ → Bool) (keys : List String) :
    (survivorsOf kept keys).length = (positions kept keys.length).length := by
  rw [← map_snd_survivorsOf,length_map]

theorem moved_self_iff {kept : ℕ → Bool} (hm : Below keys.length m) :
    (Moved (survivorsOf kept keys) m m ∧ Below (survivorsOf kept keys).length m) ↔
      ∀ j < keys.length, kept j = false → Below j m := by
  rw [length_survivorsOf]
  refine Iff.trans (and_congr_left fun _ => ?_) (unmoved_iff kept hm)
  constructor
  · intro hmov p j hj
    rw [getElem?_survivorsOf] at hj
    obtain ⟨⟨key,j'⟩,hkey,rfl⟩ := Option.map_eq_some_iff.mp hj
    exact hmov p key j' hkey
  · intro hmov p key j hkey
    exact hmov p j (by rw [getElem?_survivorsOf,hkey]; rfl)

lemma Carries.below (h : Carries pick survivors m) : Below survivors.length m := by
  intro p hp
  rw [h p,getElem?_eq_none hp]
  rfl

end

structure MapsBelow (n : ℕ) (info : PoolInfo) : Prop where
  status : Below n info.multiKeyStatusList
  disabledTime : Below n info.multiKeyDisabledTime
  disabledReason : Below n info.multiKeyDisabledReason
  cooldownUntil : Below n info.multiKeyCooldownUntil
  proxy : Below n info.multiKeyProxy
  weight : Below n info.multiKeyWeight
  keyMeta : Below n info.multiKeyMeta

structure WellFormed (env : Env) (row : Row) : Prop where
  size : row.channelInfo.multiKeySize = (getKeys env row.key).length
  maps : MapsBelow (getKeys env row.key).length row.channelInfo

structure Shifted (env : Env) (before after : Row) (survivors : List (String × ℕ)) : Prop where
  keys : getKeys env after.key = survivors.map Prod.fst
  status : ∀ p key j, survivors[p]? = some (key,j) →
    keyStatus after.channelInfo.toChannelInfo p = keyStatus before.channelInfo.toChannelInfo j
  cooldownUntil : Moved survivors before.channelInfo.multiKeyCooldownUntil after.channelInfo.multiKeyCooldownUntil
  proxy : Moved survivors before.channelInfo.multiKeyProxy after.channelInfo.multiKeyProxy
  weight : Moved survivors before.channelInfo.multiKeyWeight after.channelInfo.multiKeyWeight
  keyMeta : Moved survivors before.channelInfo.multiKeyMeta after.channelInfo.multiKeyMeta
  maps : MapsBelow (getKeys env after.key).length after.channelInfo

def survivors (env : Env) (op : Operation) (row : Row) : List (String × ℕ) :=
  survivorsOf (kept row.channelInfo op) (getKeys env row.key)

def savedKey (env : Env) (op : Operation) (row : Row) : String :=
  let key := joinLines ((survivors env op row).map Prod.fst)
  if key = "" then row.key else key

/-- The key column afterwards reads as the keys that are left. -/
def ReadsBack (env : Env) (op : Operation) (row : Row) : Prop :=
  getKeys env (savedKey env op row) = (survivors env op row).map Prod.fst

/-- The four maps that stay as they are end before index `j`. -/
def EndsBefore (info : PoolInfo) (j : ℕ) : Prop :=
  Below j info.multiKeyCooldownUntil ∧ Below j info.multiKeyProxy ∧ Below j info.multiKeyWeight ∧
    Below j info.multiKeyMeta

lemma countKeys_eq (h : getKeys env key ≠ []) : countKeys env key = (getKeys env key).length := by
  unfold getKeys at h ⊢
  unfold countKeys
  split
  · next hempty => simp [hempty] at h
  · next hempty =>
    cases hjson : jsonKeys env key with
    | none => rfl
    | some arr =>
      cases arr with
      | nil => simp [hjson] at h
      | cons v arr => rfl

lemma exists_not_kept
    (h : (rebuiltFor info op keys).deletedCount ≠ 0) : ∃ j < keys.length, kept info op j = false := by
  obtain ⟨_,_,_,hspec,-⟩ := rebuiltFor_spec info op keys
  have htotal := hspec.deletedCount
  have hlen := length_survivorsOf (kept info op) keys
  have hshort : (positions (kept info op) keys.length).length < keys.length := by omega
  obtain ⟨j,hj,hdro⟩ := exists_dropped _ le_rfl hshort
  exact ⟨j,by omega,hdro⟩

lemma save_ok (h : (save env row built text).2 = .ok message) : env.updatesError = none := by
  cases herr : env.updatesError with
  | none => rfl
  | some err => simp [save,update,herr,Except.map] at h

lemma manageMultiKeys_ok (hrow : WellFormed env row)
    (h : (manageMultiKeys env op row).2 = .ok message) :
    row.channelInfo.isMultiKey ∧ env.updatesError = none ∧ (manageMultiKeys env op row).1
        = (update env row (edited row (rebuiltFor row.channelInfo op (getKeys env row.key)))).1 ∧
      ∃ j < (getKeys env row.key).length, kept row.channelInfo op j = false := by
  cases hmulti : row.channelInfo.isMultiKey with
  | false => simp [manageMultiKeys,hmulti] at h
  | true =>
    cases hgra : env.granted with
    | false => simp [manageMultiKeys,hmulti,hgra] at h
    | true =>
      simp only [manageMultiKeys,hmulti,hgra,Bool.true_eq_false,if_false] at h ⊢
      cases op with
      | deleteKey keyIndex =>
        cases keyIndex with
        | none => cases h
        | some keyIndex =>
          simp only at h ⊢
          split at h
          · cases h
          · next hran =>
            split at h
            · cases h
            · next hlast =>
              rw [if_neg hran,if_neg hlast]
              rw [hrow.size] at hran
              refine ⟨trivial,save_ok h,rfl,keyIndex.toNat,by omega,?_⟩
              simp only [kept,decide_eq_false_iff_not,not_not]
              congr 1
              omega
      | deleteDisabledKeys =>
        simp only at h ⊢
        split at h
        · cases h
        · next hcount =>
          rw [if_neg hcount]
          exact ⟨trivial,save_ok h,rfl,exists_not_kept hcount⟩

lemma at?_deleteWhere :
    KeyMap.at? (m.deleteWhere fun row => n ≤ row.1) idx = if n ≤ idx then none else KeyMap.at? m idx := by
  rw [KeyMap.at?,get?_deleteWhere,KeyMap.at?]
  cases h : m.get? idx with
  | none => simp
  | some entry =>
    obtain ⟨i,a⟩ := entry
    obtain rfl : i = idx := key_of_get? h
    by_cases hn : n ≤ i
    · simp [hn]
    · simp [hn,Nat.lt_of_not_le hn]

lemma length_survivors_lt (hj : j < (getKeys env row.key).length)
    (hdro : kept row.channelInfo op j = false) :
    (survivors env op row).length < (getKeys env row.key).length := by
  rw [survivors,length_survivorsOf]
  exact length_positions_lt _ hj hdro

lemma countKeys_survivors (hj : j < (getKeys env row.key).length)
    (hdro : kept row.channelInfo op j = false) (hrea : ReadsBack env op row) :
    joinLines ((survivors env op row).map Prod.fst) ≠ "" ∧
      countKeys env (joinLines ((survivors env op row).map Prod.fst)) = (survivors env op row).length := by
  have hlt := length_survivors_lt hj hdro
  have hne : joinLines ((survivors env op row).map Prod.fst) ≠ "" := by
    intro hempty
    have hlen := congrArg length hrea
    simp only [savedKey,hempty,if_true,length_map] at hlen
    omega
  have hsome : (survivors env op row).map Prod.fst ≠ [] := by
    intro hnil
    rw [hnil] at hne
    exact hne rfl
  simp only [ReadsBack,savedKey,hne,if_false] at hrea
  refine ⟨hne,?_⟩
  rw [countKeys_eq (by rw [hrea]; exact hsome),hrea,length_map]

structure Saved (env : Env) (op : Operation) (row after : Row) : Prop where
  key : after.key = savedKey env op row
  status : ReadsBack env op row → ∀ p key j, (survivors env op row)[p]? = some (key,j) →
    keyStatus after.channelInfo.toChannelInfo p = keyStatus row.channelInfo.toChannelInfo j
  statusBelow : Below (survivors env op row).length after.channelInfo.multiKeyStatusList
  disabledTime : Below (survivors env op row).length after.channelInfo.multiKeyDisabledTime
  disabledReason : Below (survivors env op row).length after.channelInfo.multiKeyDisabledReason
  cooldownUntil : after.channelInfo.multiKeyCooldownUntil = row.channelInfo.multiKeyCooldownUntil
  proxy : after.channelInfo.multiKeyProxy = row.channelInfo.multiKeyProxy
  weight : after.channelInfo.multiKeyWeight = row.channelInfo.multiKeyWeight
  keyMeta : after.channelInfo.multiKeyMeta = row.channelInfo.multiKeyMeta

lemma keyStatus_eq (info : PoolInfo) :
    keyStatus info.toChannelInfo idx = (KeyMap.at? info.multiKeyStatusList idx).getD ChannelStatus.enabled := rfl

lemma at?_update (ch : Row) (hmulti : ch.channelInfo.isMultiKey)
    (herr : env.updatesError = none) (hkey : ch.key ≠ "") :
    KeyMap.at? (update env stored ch).1.channelInfo.multiKeyStatusList idx
      = if countKeys env ch.key ≤ idx then none else KeyMap.at? ch.channelInfo.multiKeyStatusList idx := by
  simp only [update,hmulti,herr,if_true]
  rw [at?_deleteWhere,if_pos hkey]

lemma manageMultiKeys_saved (hrow : WellFormed env row)
    (h : (manageMultiKeys env op row).2 = .ok message) : Saved env op row (manageMultiKeys env op row).1 := by
  obtain ⟨hmulti,herr,hsav,j,hj,hdro⟩ := manageMultiKeys_ok hrow h
  obtain ⟨pick,time,reason,hspec,hpick⟩ := rebuiltFor_spec row.channelInfo op (getKeys env row.key)
  change Rebuilt.Spec pick time reason (survivors env op row) _ _ at hspec
  have hstatus : ReadsBack env op row → ∀ p key j, (survivors env op row)[p]? = some (key,j) →
      keyStatus (manageMultiKeys env op row).1.channelInfo.toChannelInfo p
        = keyStatus row.channelInfo.toChannelInfo j := by
    intro hrea p key j' hp
    obtain ⟨hne,hcount⟩ := countKeys_survivors hj hdro hrea
    have hlt := (List.getElem?_eq_some_iff.mp hp).1
    have hkey : (edited row (rebuiltFor row.channelInfo op (getKeys env row.key))).key
        = joinLines ((survivors env op row).map Prod.fst) := congrArg joinLines hspec.remainingKeys
    have hkept : KeyMap.at? (rebuiltFor row.channelInfo op (getKeys env row.key)).newStatusList p = pick j' := by
      rw [hspec.newStatusList p,hp]
      rfl
    rw [hsav,keyStatus_eq,at?_update (edited row _) hmulti herr (by rw [hkey]; exact hne),hkey,
      if_neg (by omega)]
    exact (congrArg (·.getD ChannelStatus.enabled) hkept).trans (hpick j')
  rw [hsav] at hstatus ⊢
  refine ⟨?_,hstatus,fun p hp => ?_,?_,?_,?_,?_,?_,?_⟩ <;>
    simp only [update,edited,hmulti,herr,if_true,hspec.remainingKeys]
  · rfl
  · rw [at?_deleteWhere,hspec.newStatusList.below p hp,ite_self]
  · exact hspec.newDisabledTime.below
  · exact hspec.newDisabledReason.below

lemma stays_iff (op : Operation) {α : Type} {before after : KeyMap α} (hsame : after = before)
    (hbefore : Below (getKeys env row.key).length before) :
    (Moved (survivors env op row) before after ∧ Below (survivors env op row).length after) ↔
      ∀ j < (getKeys env row.key).length, kept row.channelInfo op j = false → Below j before := by
  subst hsame
  exact moved_self_iff hbefore

lemma Saved.shifted_iff (hrow : WellFormed env row) (h : Saved env op row after) :
    Shifted env row after (survivors env op row) ↔
      ReadsBack env op row ∧ ∀ j < (getKeys env row.key).length, kept row.channelInfo op j = false →
        EndsBefore row.channelInfo j := by
  obtain ⟨-,-,-,hcool,hpro,hweight,hmeta⟩ := hrow.maps
  have hcool := stays_iff op h.cooldownUntil hcool
  have hpro := stays_iff op h.proxy hpro
  have hweight := stays_iff op h.weight hweight
  have hmeta := stays_iff op h.keyMeta hmeta
  have hlen : ((survivors env op row).map Prod.fst).length = (survivors env op row).length := length_map ..
  constructor
  · intro hshi
    have hrea : ReadsBack env op row := by
      rw [ReadsBack,← h.key]
      exact hshi.keys
    have hmaps := hshi.maps
    rw [hshi.keys,hlen] at hmaps
    refine ⟨hrea,fun j hj hdro => ⟨?_,?_,?_,?_⟩⟩
    · exact hcool.mp ⟨hshi.cooldownUntil,hmaps.cooldownUntil⟩ j hj hdro
    · exact hpro.mp ⟨hshi.proxy,hmaps.proxy⟩ j hj hdro
    · exact hweight.mp ⟨hshi.weight,hmaps.weight⟩ j hj hdro
    · exact hmeta.mp ⟨hshi.keyMeta,hmaps.keyMeta⟩ j hj hdro
  · rintro ⟨hrea,hends⟩
    obtain ⟨hcool,hcoo⟩ := hcool.mpr fun j hj hdro => (hends j hj hdro).1
    obtain ⟨hpro,hprox⟩ := hpro.mpr fun j hj hdro => (hends j hj hdro).2.1
    obtain ⟨hweight,hwei⟩ := hweight.mpr fun j hj hdro => (hends j hj hdro).2.2.1
    obtain ⟨hmeta,hmet⟩ := hmeta.mpr fun j hj hdro => (hends j hj hdro).2.2.2
    have hkeys : getKeys env after.key = (survivors env op row).map Prod.fst := by
      rw [h.key]
      exact hrea
    refine ⟨hkeys,h.status hrea,hcool,hpro,hweight,hmeta,?_⟩
    rw [hkeys,hlen]
    exact ⟨h.statusBelow,h.disabledTime,h.disabledReason,hcoo,hprox,hwei,hmet⟩

/-- The four maps that are not rebuilt must end before the first deleted key. -/
theorem manageMultiKeys_shifts_iff (env : Env) (op : Operation) (row : Row)
    (hrow : WellFormed env row) (message : String)
    (hok : (manageMultiKeys env op row).2 = .ok message) :
    Shifted env row (manageMultiKeys env op row).1 (survivors env op row) ↔
      ReadsBack env op row ∧ ∀ j < (getKeys env row.key).length, kept row.channelInfo op j = false →
        EndsBefore row.channelInfo j :=
  (manageMultiKeys_saved hrow hok).shifted_iff hrow

/-! Keys that are written one a line. -/

/-! Two channels with two keys. -/

lemma below_of_rows {α : Type} {m : KeyMap α} (h : ∀ entry ∈ m.rows, entry.1 < n) : Below n m := by
  intro idx hidx
  have hnone : m.get? idx = none := by
    refine get?_eq_none.mpr fun entry hentry hkey => ?_
    have hlt := h entry hentry
    omega
  rw [KeyMap.at?,hnone]
  rfl

def plainEnv : Env := { unmarshal := fun _ => none }

/-- Each key goes out through a proxy of its own. -/
def twoProxies : Row where
  key := "a\nb"
  channelInfo := {
    isMultiKey := true
    multiKeySize := 2
    multiKeyProxy := put (.put .empty (0,"proxy-a")) (1,"proxy-b") }

lemma twoProxies_wellFormed : WellFormed plainEnv twoProxies :=
  ⟨by decide +kernel,by constructor <;> exact below_of_rows (by decide +kernel)⟩

theorem deleteKey_hands_proxy_over : WellFormed plainEnv twoProxies ∧
    (manageMultiKeys plainEnv (.deleteKey (some 0)) twoProxies).2 = .ok "密钥已删除" ∧
    getKeys plainEnv (manageMultiKeys plainEnv (.deleteKey (some 0)) twoProxies).1.key = ["b"] ∧
    KeyMap.at? twoProxies.channelInfo.multiKeyProxy 1 = some "proxy-b" ∧
    KeyMap.at? (manageMultiKeys plainEnv (.deleteKey (some 0)) twoProxies).1.channelInfo.multiKeyProxy 0
      = some "proxy-a" ∧
    ¬Shifted plainEnv twoProxies (manageMultiKeys plainEnv (.deleteKey (some 0)) twoProxies).1
      (survivors plainEnv (.deleteKey (some 0)) twoProxies) := by
  refine ⟨twoProxies_wellFormed,by decide +kernel,by decide +kernel,by decide +kernel,by decide +kernel,fun h => ?_⟩
  have hpro := h.proxy 0 "b" 1 (by decide +kernel)
  exact absurd hpro (by decide +kernel)

/-- The second key is switched off and has no entry of the other kinds. -/
def secondOff : Row where
  key := "a\nb"
  channelInfo := {
    isMultiKey := true
    multiKeySize := 2
    multiKeyStatusList := put .empty (1,.manuallyDisabled) }

theorem manageMultiKeys_shifts_secondOff :
    Shifted plainEnv secondOff (manageMultiKeys plainEnv (.deleteKey (some 0)) secondOff).1
      (survivors plainEnv (.deleteKey (some 0)) secondOff) := by
  have hrow : WellFormed plainEnv secondOff :=
    ⟨by decide +kernel,by constructor <;> exact below_of_rows (by decide +kernel)⟩
  refine (manageMultiKeys_shifts_iff plainEnv (.deleteKey (some 0)) secondOff hrow "密钥已删除" (by decide +kernel)).mpr
    ⟨by unfold ReadsBack; decide +kernel,fun j _ _ => ⟨?_,?_,?_,?_⟩⟩
  all_goals exact below_of_rows nofun

end LurusHub.KeyDeletion
