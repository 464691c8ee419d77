import LurusHub.ChannelStatus
import LurusHub.WeightedRotation

/-! The keys of a multi-key channel. A rate limit parks a key until a deadline, a failure or an
administrator disables it, and the reaper brings back keys whose deadline has passed. Status and
deadline are kept in two maps, and not every writer writes both. -/
namespace LurusHub.KeyPool
open ChannelCache Transition WeightedRotation

/-! Picking a key. -/

/-- A key without an entry is enabled. -/
def keyStatus (info : ChannelInfo) (idx : ℕ) : ChannelStatus := ((info.multiKeyStatusList.get? idx).map Prod.snd).getD .enabled

def defaultKeyWeight : ℤ := 50

def keyWeight (info : ChannelInfo) (idx : ℕ) : ℤ := ((info.multiKeyWeight.get? idx).map Prod.snd).getD defaultKeyWeight

inductive KeyError
  | noKeysAvailable
  | allKeysCooling (retryAfterUnix : ℤ)
  | noEnabledKeys
  | noWeightedKey
  | getChannelFailed
  deriving DecidableEq

structure Rotation where
  rand : ℕ := 0
  cached : Option ℤ := none
  cursor : WeightedCursor := fun _ => none

/-- When the first key comes back, if every key is parked with a deadline. -/
def allCooling (channel : Channel) : Option ℤ :=
  let untils := (List.range channel.keys.length).map fun i =>
    ((channel.channelInfo.multiKeyCooldownUntil.get? i).map Prod.snd).getD 0
  if untils.all (0 < ·) then untils.min? else none

structure Picked where
  channel : Channel
  cursor : WeightedCursor
  result : Except KeyError (String × ℕ)

def enabledIdx (channel : Channel) : List ℕ :=
  (List.range channel.keys.length).filter fun i => keyStatus channel.channelInfo i = .enabled

/-- The indices in the order of the polling, which starts from the saved one. -/
def pollingOrder (keys : List String) (saved : ℤ) : List ℕ :=
  let start := if saved < 0 ∨ keys.length ≤ saved then 0 else saved.toNat
  (List.range keys.length).map fun i => (start+i)%keys.length

/-- `key` is the key column as it is stored. -/
def getNextEnabledKey (channel : Channel) (key : String) (rot : Rotation) : Picked :=
  let info := channel.channelInfo
  let enabled := enabledIdx channel
  if info.isMultiKey = false then ⟨channel,rot.cursor,.ok (key,0)⟩
  else if channel.keys = [] then ⟨channel,rot.cursor,.error .noKeysAvailable⟩
  else
    match enabled with
    | [] => ⟨channel,rot.cursor,.error (match allCooling channel with | some u => .allKeysCooling u | none => .noEnabledKeys)⟩
    | first::_ =>
      match info.multiKeyMode with
      | .random =>
        let idx := enabled.getD (rot.rand%enabled.length) first
        ⟨channel,rot.cursor,.ok (channel.keys.getD idx "",idx)⟩
      | .weighted =>
        match nextWeighted rot.cursor channel.id (enabled.map Nat.cast) (fun i => keyWeight info i.toNat) with
        | (cursor,none) => ⟨channel,cursor,.error .noWeightedKey⟩
        | (cursor,some idx) => ⟨channel,cursor,.ok (channel.keys.getD idx.toNat "",idx.toNat)⟩
      | .polling =>
        match rot.cached with
        | none => ⟨channel,rot.cursor,.error .getChannelFailed⟩
        | some saved =>
          match (pollingOrder channel.keys saved).find? fun i => keyStatus info i = .enabled with
          | some idx =>
            ⟨{ channel with channelInfo := { info with multiKeyPollingIndex := (idx+1)%channel.keys.length } },
              rot.cursor,.ok (channel.keys.getD idx "",idx)⟩
          | none => ⟨channel,rot.cursor,.ok (channel.keys.getD first "",first)⟩
      | .other => ⟨channel,rot.cursor,.ok (channel.keys.getD first "",first)⟩

/-- The bound key, if it may still be used. -/
def keyIfRoutable (channel : Channel) (idx : ℕ) : Option String :=
  let info := channel.channelInfo
  if info.isMultiKey = false then none
  else
    match channel.keys[idx]? with
    | none => none
    | some key =>
      if keyStatus info idx ≠ .enabled then none
      else if info.multiKeyMode = .weighted ∧ keyWeight info idx ≤ 0 then none
      else some key

/-! The writers. -/

def clearMultiKeyCooldown (info : ChannelInfo) (keyIndex : ℕ) : ChannelInfo :=
  { info with
    multiKeyStatusList := info.multiKeyStatusList.delete keyIndex
    multiKeyCooldownUntil := info.multiKeyCooldownUntil.delete keyIndex }

def expired (info : ChannelInfo) (now : ℤ) : List ℕ :=
  (info.multiKeyCooldownUntil.rows.filter fun row => 0 < row.2 ∧ row.2 ≤ now).map Prod.fst

/-- Besides the channel, the number of recovered keys. A channel that was off comes back with a key. -/
def reapChannel (now : ℤ) (channel : Channel) : Channel × ℕ :=
  if channel.channelInfo.isMultiKey = false then (channel,0)
  else
    match expired channel.channelInfo now with
    | [] => (channel,0)
    | indices =>
      let info := indices.foldl clearMultiKeyCooldown channel.channelInfo
      let status :=
        if channel.status = .autoDisabled ∧ info.multiKeyStatusList.size < info.multiKeySize then .enabled else channel.status
      ({ channel with channelInfo := info, status },indices.length)

/-- The size is counted again, and statuses beyond it are dropped. -/
def update (channel : Channel) : Channel :=
  if channel.channelInfo.isMultiKey then
    { channel with channelInfo := { channel.channelInfo with
        multiKeySize := channel.keys.length
        multiKeyStatusList := channel.channelInfo.multiKeyStatusList.deleteWhere fun row => channel.keys.length ≤ row.1 } }
  else channel

def disableKey (keyIndex : Option ℤ) (channel : Channel) : Except String Channel :=
  if channel.channelInfo.isMultiKey = false then .error "该渠道不是多密钥模式"
  else
    match keyIndex with
    | none => .error "未指定要禁用的密钥索引"
    | some keyIndex =>
      if keyIndex < 0 ∨ channel.channelInfo.multiKeySize ≤ keyIndex then .error "密钥索引超出范围"
      else
        .ok (update { channel with channelInfo := { channel.channelInfo with
          multiKeyStatusList := channel.channelInfo.multiKeyStatusList.put (keyIndex.toNat,.manuallyDisabled) } })

inductive Act
  | park (usingKey : String) (cooldownUntil : ℤ) (keepStatus : Bool)
  | autoDisable (usingKey : String)
  | reap (now : ℤ)
  | disableKey (keyIndex : Option ℤ)

/-- A refused operation leaves the channel as it is. -/
def step (channel : Channel) : Act → Channel
  | .park usingKey cooldownUntil keepStatus => (applyMultiKeyCooldownOpt usingKey cooldownUntil keepStatus channel).1
  | .autoDisable usingKey => handlerMultiKeyUpdate usingKey .autoDisabled channel
  | .reap now => (reapChannel now channel).1
  | .disableKey keyIndex => ((KeyPool.disableKey keyIndex channel).toOption).getD channel

end LurusHub.KeyPool
