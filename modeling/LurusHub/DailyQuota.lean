import LurusHub.KeyedTable
import LurusHub.Transition
import Mathlib.Algebra.Order.Ring.Int

/-! The daily quota of a user: a counter that a settlement raises, a lazy reset at UTC midnight and
a group that follows them. A step is one statement or one reading of the clock; a call keeps its
place in `calls`, and the label says which call runs and which statement fails. No statement reads
`passed`. -/
namespace LurusHub.DailyQuota
open KeyedTable Option List

structure User where
  id : ℕ
  (group baseGroup fallbackGroup : String)
  (dailyQuota dailyUsed : ℤ)
  lastDailyReset : ℕ
  deriving DecidableEq, Repr

abbrev Users := KeyedTable User ℕ User.id

def day (now : ℕ) : ℕ := now/86400

def todayStart (now : ℕ) : ℕ := now/86400*86400

def needsDailyResetAt (lastResetTimestamp nowTimestamp : ℕ) : Bool :=
  if lastResetTimestamp = 0 then true
  else decide (nowTimestamp/86400 > lastResetTimestamp/86400)

structure DailyQuotaInfo where
  userID : ℕ
  (dailyQuota dailyUsed dailyRemaining : ℤ)
  lastDailyReset : ℕ
  (baseGroup fallbackGroup currentGroup : String)
  (isUsingFallback needsReset : Bool)
  deriving DecidableEq, Repr

def User.info (user : User) (now : ℕ) : DailyQuotaInfo where
  userID := user.id
  dailyQuota := user.dailyQuota
  dailyUsed := user.dailyUsed
  -- -1 means unlimited
  dailyRemaining := if user.dailyQuota > 0 then max (user.dailyQuota-user.dailyUsed) 0 else -1
  lastDailyReset := user.lastDailyReset
  baseGroup := user.baseGroup
  fallbackGroup := user.fallbackGroup
  currentGroup := user.group
  isUsingFallback := user.fallbackGroup ≠ "" && user.group = user.fallbackGroup
  needsReset := needsDailyResetAt user.lastDailyReset now

/-- `none` is the error of a row that is not there. -/
def getUserDailyQuotaInfo (users : Users) (now userId : ℕ) : Option DailyQuotaInfo :=
  (users.get? userId).map (User.info · now)

inductive DailyError
  | negative (text : String)
  | database
  deriving DecidableEq, Repr

def increaseDailyUsed (fails : Bool) (users : Users) (userId : ℕ) (amount : ℤ) : Except DailyError Users :=
  if amount < 0 then .error (.negative "amount cannot be negative")
  else if fails then .error .database
  else .ok (users.modify userId fun u => { u with dailyUsed := u.dailyUsed+amount })

/-- The conditional `UPDATE` of `ResetDailyQuota`; `now` was read before it. -/
def resetDailyQuota (users : Users) (userId now : ℕ) : Users :=
  users.updateWhere (fun u => decide (u.id = userId ∧ u.lastDailyReset < todayStart now))
    fun u => { u with dailyUsed := 0, lastDailyReset := now }

def updateGroup (users : Users) (userId : ℕ) (group : String) : Users :=
  users.modify userId fun u => { u with group := group }

/-- The `WHERE` clause of `GetUsersNeedingDailyReset`. -/
def User.needsReset (u : User) (now : ℕ) : Bool :=
  u.dailyQuota > 0 && (u.lastDailyReset < todayStart now || u.lastDailyReset = 0)

def dailyQuotaResetBatchSize : ℕ := 100

/-- What `GetUsersNeedingDailyReset` may return: a `LIMIT` without an `ORDER BY` keeps any
choice of the rows that match. -/
def IsListing (users : Users) (now limit : ℕ) (listed : List ℕ) : Prop :=
  listed.Nodup ∧ (∀ id ∈ listed, (users.get? id).any (User.needsReset · now)) ∧
    listed.length = min limit (users.rows.countP (User.needsReset · now))
  deriving Decidable

inductive Caller
  | direct
  | cron (rest : List ℕ)
  | check (quotaToConsume : ℤ)
  deriving DecidableEq, Repr

inductive Call
  /-- `PostConsumeDailyQuota` after its increment. -/
  | postCheck (userId : ℕ)
  | switchRead (userId : ℕ)
  | switchWrite (userId : ℕ) (group : String)
  /-- `ProcessDailyQuotaReset` before it reads the clock. -/
  | process (userId : ℕ) (caller : Caller)
  | reset (userId now : ℕ) (caller : Caller)
  | restoreRead (userId : ℕ) (caller : Caller)
  | restoreWrite (userId : ℕ) (group : String) (caller : Caller)
  /-- `processDailyQuotaResets` with the listed users still to do. -/
  | cron (rest : List ℕ)
  /-- `CheckAndHandleDailyQuotaExhaustion` before its first and before its second read. -/
  | check (userId : ℕ) (quotaToConsume : ℤ)
  | recheck (userId : ℕ) (quotaToConsume : ℤ)
  deriving DecidableEq, Repr

/-- All three callers of `ProcessDailyQuotaReset` go on after an error as after a success. -/
def Caller.resume (userId : ℕ) : Caller → Option Call
  | .direct => none
  | .cron rest => some (.cron rest)
  | .check quotaToConsume => some (.recheck userId quotaToConsume)

/-- The last part of `CheckAndHandleDailyQuotaExhaustion`. -/
def exhaustionSwitch (info : DailyQuotaInfo) (userId : ℕ) (quotaToConsume : ℤ) : Option Call :=
  if info.dailyUsed+quotaToConsume > info.dailyQuota then
    if !info.isUsingFallback && info.fallbackGroup ≠ "" then some (.switchRead userId) else none
  else none

/-- One statement of a call, and what is left of the call. -/
def Call.execute (clock : ℕ) (users : Users) : Call → Users × Option Call
  | .postCheck userId =>
    (users,(getUserDailyQuotaInfo users clock userId).bind fun info =>
      if info.dailyQuota ≤ 0 then none
      else if info.dailyUsed ≥ info.dailyQuota && !info.isUsingFallback && info.fallbackGroup ≠ "" then
        some (.switchRead userId)
      else none)
  | .switchRead userId =>
    (users,(users.get? userId).bind fun user =>
      if user.fallbackGroup = "" || user.group = user.fallbackGroup then none
      else some (.switchWrite userId user.fallbackGroup))
  | .switchWrite userId group => (updateGroup users userId group,none)
  | .process userId caller => (users,some (.reset userId clock caller))
  | .reset userId now caller => (resetDailyQuota users userId now,some (.restoreRead userId caller))
  | .restoreRead userId caller =>
    (users,match users.get? userId with
      | none => caller.resume userId
      | some user =>
        if user.baseGroup = "" || user.group = user.baseGroup then caller.resume userId
        else some (.restoreWrite userId user.baseGroup caller))
  | .restoreWrite userId group caller => (updateGroup users userId group,caller.resume userId)
  | .cron [] => (users,none)
  | .cron (userId::rest) => (users,some (.reset userId clock (.cron rest)))
  | .check userId quotaToConsume =>
    (users,(getUserDailyQuotaInfo users clock userId).bind fun info =>
      if info.dailyQuota ≤ 0 then none
      else if info.needsReset then some (.process userId (.check quotaToConsume))
      else exhaustionSwitch info userId quotaToConsume)
  | .recheck userId quotaToConsume =>
    (users,(getUserDailyQuotaInfo users clock userId).bind fun info =>
      exhaustionSwitch info userId quotaToConsume)

/-- What is left of a call whose statement failed. -/
def Call.abort : Call → Option Call
  | .reset userId _ caller | .restoreRead userId caller | .restoreWrite userId _ caller => caller.resume userId
  | .process userId caller => some (.process userId caller)
  | .cron rest => some (.cron rest)
  | _ => none

structure Passed where
  (userId time : ℕ)
  amount : ℤ
  deriving DecidableEq, Repr

structure State where
  clock : ℕ
  users : Users
  calls : List Call
  passed : List Passed

inductive Act
  | tick (seconds : ℕ)
  | postConsumeDailyQuota (userId : ℕ) (quotaConsumed : ℤ) (fails : Bool)
  | processDailyQuotaReset (userId : ℕ)
  | processDailyQuotaResets (listed : List ℕ)
  | checkAndHandleDailyQuotaExhaustion (userId : ℕ) (quotaToConsume : ℤ)
  | advance (i : ℕ)
  | fault (i : ℕ)
  deriving DecidableEq, Repr

def resume (calls : List Call) (i : ℕ) : Option Call → List Call
  | some call => calls.set i call
  | none => calls.eraseIdx i

/-- `PostConsumeDailyQuota` up to and with its increment. -/
def postConsumeDailyQuota (s : State) (userId : ℕ) (quotaConsumed : ℤ) (fails : Bool) : State :=
  let s := { s with passed := s.passed++[⟨userId,s.clock,quotaConsumed⟩] }
  if quotaConsumed ≤ 0 then s
  else match increaseDailyUsed fails s.users userId quotaConsumed with
    | .error _ => s
    | .ok users => { s with users := users, calls := s.calls++[.postCheck userId] }

def step (s : State) : Act → State
  | .tick seconds => { s with clock := s.clock+seconds }
  | .postConsumeDailyQuota userId quotaConsumed fails => postConsumeDailyQuota s userId quotaConsumed fails
  | .processDailyQuotaReset userId => { s with calls := s.calls++[.process userId .direct] }
  | .processDailyQuotaResets listed =>
    if IsListing s.users s.clock dailyQuotaResetBatchSize listed then
      { s with calls := s.calls++[.cron listed] }
    else s
  | .checkAndHandleDailyQuotaExhaustion userId quotaToConsume =>
    { s with calls := s.calls++[.check userId quotaToConsume] }
  | .advance i =>
    match s.calls[i]? with
    | none => s
    | some call =>
      let (users,rest) := call.execute s.clock s.users
      { s with users := users, calls := resume s.calls i rest }
  | .fault i =>
    match s.calls[i]? with
    | none => s
    | some call => { s with calls := resume s.calls i call.abort }

/-! What one step does to a row, to the record of amounts and to the calls. -/

def Call.write (userId : ℕ) : Call → User → User
  | .switchWrite id group | .restoreWrite id group _ => fun u => if id = userId then { u with group := group } else u
  | .reset id now _ => fun u =>
    if id = userId ∧ u.lastDailyReset < todayStart now then { u with dailyUsed := 0, lastDailyReset := now }
    else u
  | _ => fun u => u

def Act.write (s : State) (userId : ℕ) : Act → User → User
  | .postConsumeDailyQuota id quotaConsumed fails => fun u =>
    if id = userId ∧ 0 < quotaConsumed ∧ fails = false then { u with dailyUsed := u.dailyUsed+quotaConsumed }
    else u
  | .advance i =>
    match s.calls[i]? with
    | some call => call.write userId
    | none => fun u => u
  | _ => fun u => u

def Act.seconds : Act → ℕ
  | .tick seconds => seconds
  | _ => 0

def Act.passes (s : State) : Act → List Passed
  | .postConsumeDailyQuota userId quotaConsumed _ => [⟨userId,s.clock,quotaConsumed⟩]
  | _ => []

lemma get?_updateGroup (id : ℕ) : (updateGroup users id group).get? uid =
      (users.get? uid).map fun u => if id = uid then { u with group := group } else u := by
  rw [updateGroup,get?_modify]
  by_cases h : uid = id
  · simp [h]
  · simp [h,Ne.symm h]

lemma get?_resetDailyQuota (id : ℕ) :
    (resetDailyQuota users id now).get? uid = (users.get? uid).map fun u =>
      if id = uid ∧ u.lastDailyReset < todayStart now then { u with dailyUsed := 0, lastDailyReset := now }
      else u := by
  rw [resetDailyQuota,get?_updateWhere]
  cases h : users.get? uid with
  | none => rfl
  | some u => simp [key_of_get? h,@eq_comm _ uid]

lemma execute_get? (call : Call) :
    (call.execute clock users).1.get? uid = (users.get? uid).map (call.write uid) := by
  cases call with
  | switchWrite id group | restoreWrite id group caller => exact get?_updateGroup id
  | reset id now caller => exact get?_resetDailyQuota id
  | cron rest => cases rest <;> simp [Call.execute,Call.write]
  | postCheck | switchRead | process | restoreRead | check | recheck => simp [Call.execute,Call.write]

theorem postConsumeDailyQuota_eq (id : ℕ) : postConsumeDailyQuota s id quotaConsumed fails =
    let s := { s with passed := s.passed++[⟨id,s.clock,quotaConsumed⟩] }
    if 0 < quotaConsumed ∧ fails = false then
      { s with
        users := s.users.modify id fun u => { u with dailyUsed := u.dailyUsed+quotaConsumed }
        calls := s.calls++[.postCheck id] }
    else s := by
  unfold postConsumeDailyQuota
  by_cases hpos : quotaConsumed ≤ 0
  · have hq : ¬0 < quotaConsumed := by omega
    simp [hpos,hq]
  · have hneg : ¬quotaConsumed < 0 := by omega
    have hq : 0 < quotaConsumed := by omega
    cases fails <;> simp [hpos,hneg,hq,increaseDailyUsed]

lemma step_get? (s : State) (a : Act) (uid : ℕ) :
    (step s a).users.get? uid = (s.users.get? uid).map (a.write s uid) := by
  cases a with
  | postConsumeDailyQuota id quotaConsumed fails =>
    simp only [step,postConsumeDailyQuota_eq,Act.write]
    split
    · next hq =>
      by_cases h : uid = id
      · simp [h,hq]
      · simp [get?_modify,h,Ne.symm h]
    · next hq => simp [hq]
  | advance i =>
    cases h : s.calls[i]? with
    | none => simp [step,Act.write,h]
    | some call => simpa [step,Act.write,h] using execute_get? call
  | fault i => cases h : s.calls[i]? <;> simp [step,Act.write,h]
  | processDailyQuotaResets listed => simp only [step]; split <;> simp [Act.write]
  | tick | processDailyQuotaReset | checkAndHandleDailyQuotaExhaustion => simp [step,Act.write]

lemma step_clock (s : State) (a : Act) : (step s a).clock = s.clock+a.seconds := by
  cases a with
  | postConsumeDailyQuota => simp only [step,postConsumeDailyQuota_eq]; split <;> rfl
  | advance i | fault i => cases h : s.calls[i]? <;> simp [step,Act.seconds,h]
  | processDailyQuotaResets listed => simp only [step]; split <;> rfl
  | tick | processDailyQuotaReset | checkAndHandleDailyQuotaExhaustion => rfl

lemma step_passed (s : State) (a : Act) : (step s a).passed = s.passed++a.passes s := by
  cases a with
  | postConsumeDailyQuota => simp only [step,postConsumeDailyQuota_eq]; split <;> rfl
  | advance i | fault i => cases h : s.calls[i]? <;> simp [step,Act.passes,h]
  | processDailyQuotaResets listed => simp only [step]; split <;> simp [Act.passes]
  | tick | processDailyQuotaReset | checkAndHandleDailyQuotaExhaustion => simp [step,Act.passes]

def Act.takes (s : State) : Act → Option Call
  | .advance i | .fault i => s.calls[i]?
  | _ => none

def Act.opens (s : State) : Act → List Call
  | .tick _ => []
  | .postConsumeDailyQuota userId quotaConsumed fails =>
    if 0 < quotaConsumed ∧ fails = false then [.postCheck userId] else []
  | .processDailyQuotaReset userId => [.process userId .direct]
  | .processDailyQuotaResets listed =>
    if IsListing s.users s.clock dailyQuotaResetBatchSize listed then [.cron listed] else []
  | .checkAndHandleDailyQuotaExhaustion userId quotaToConsume => [.check userId quotaToConsume]
  | .advance i => (s.calls[i]?.bind fun call => (call.execute s.clock s.users).2).toList
  | .fault i => (s.calls[i]?.bind Call.abort).toList

lemma mem_resume (hi : calls[i]? = some taken) (rest : Option Call) (call : Call) :
    (call ∈ resume calls i rest → call ∈ calls ∨ rest = some call) ∧
      (rest = some call → call ∈ resume calls i rest) ∧
      (call ∈ calls → call ≠ taken → call ∈ resume calls i rest) := by
  have hlt := (List.getElem?_eq_some_iff.mp hi).1
  cases rest with
  | none =>
    refine ⟨fun h => .inl (mem_of_mem_eraseIdx h),by simp,fun h hne => ?_⟩
    obtain ⟨j,hj⟩ := mem_iff_getElem?.mp h
    have hij : j ≠ i := by
      rintro rfl
      rw [hi] at hj
      exact hne (some.inj hj).symm
    exact mem_eraseIdx_iff_getElem?.mpr ⟨j,hij,hj⟩
  | some next =>
    refine ⟨fun h => ?_,fun h => ?_,fun h hne => ?_⟩
    · rcases mem_or_eq_of_mem_set h with h | h
      · exact .inl h
      · exact .inr (by rw [h])
    · obtain rfl := some.inj h
      exact mem_set hlt next
    · obtain ⟨j,hj⟩ := mem_iff_getElem?.mp h
      have hij : i ≠ j := by
        rintro rfl
        rw [hi] at hj
        exact hne (some.inj hj).symm
      exact mem_iff_getElem?.mpr ⟨j,by simpa [resume,getElem?_set_ne hij] using hj⟩

theorem mem_step_calls (s : State) (a : Act) (call : Call) :
    (call ∈ (step s a).calls → call ∈ s.calls ∨ call ∈ a.opens s) ∧
      (call ∈ a.opens s → call ∈ (step s a).calls) ∧
      (call ∈ s.calls → a.takes s ≠ some call → call ∈ (step s a).calls) := by
  cases a with
  | postConsumeDailyQuota userId quotaConsumed fails =>
    simp only [step,postConsumeDailyQuota_eq,Act.opens]
    split <;> grind
  | advance i =>
    cases h : s.calls[i]? with
    | none => simp [step,h,Act.opens,Act.takes]
    | some taken =>
      have hm := mem_resume h (taken.execute s.clock s.users).2 call
      simpa [step,h,Act.opens,Act.takes,@eq_comm _ call] using hm
  | fault i =>
    cases h : s.calls[i]? with
    | none => simp [step,h,Act.opens,Act.takes]
    | some taken =>
      have hm := mem_resume h taken.abort call
      simpa [step,h,Act.opens,Act.takes,@eq_comm _ call] using hm
  | processDailyQuotaResets listed =>
    simp only [step,Act.opens]
    split <;> grind
  | tick => simp [step,Act.opens,Act.takes]
  | processDailyQuotaReset | checkAndHandleDailyQuotaExhaustion =>
    simp only [step,mem_append]
    exact ⟨id,.inr,fun h _ => .inl h⟩

/-- What is known of a call when it enters the calls in flight. -/
def Call.Entered (s : State) : Call → Prop
  | .reset _ now _ => now = s.clock
  | .switchWrite userId group => ∃ u, s.users.get? userId = some u ∧ group = u.fallbackGroup
  | _ => True

lemma Caller.resume_entered {caller : Caller}
    (h : caller.resume userId = some call) : call.Entered s := by
  cases caller with
  | direct => cases h
  | cron rest | check quotaToConsume => cases h; trivial

lemma execute_entered {call next : Call} (h : (call.execute s.clock s.users).2 = some next) :
    next.Entered s := by
  cases call with
  | process => cases h; rfl
  | reset => cases h; trivial
  | switchWrite => cases h
  | restoreWrite => exact Caller.resume_entered h
  | cron rest =>
    cases rest with
    | nil => cases h
    | cons => cases h; rfl
  | restoreRead uid caller =>
    simp only [Call.execute] at h
    split at h
    · exact Caller.resume_entered h
    · split at h
      · exact Caller.resume_entered h
      · cases h; trivial
  | switchRead uid =>
    simp only [Call.execute,bind_eq_some_iff] at h
    obtain ⟨u,hu,h⟩ := h
    split at h
    · cases h
    · cases h; exact ⟨u,hu,rfl⟩
  | postCheck | check | recheck =>
    simp only [Call.execute,bind_eq_some_iff,exhaustionSwitch] at h
    obtain ⟨_,_,h⟩ := h
    split_ifs at h <;> cases h <;> trivial

lemma entered_of_mem_opens {a : Act} (h : call ∈ a.opens s) : call.Entered s := by
  cases a with
  | advance i =>
    simp only [Act.opens,mem_toList,bind_eq_some_iff] at h
    obtain ⟨taken,_,h⟩ := h
    exact execute_entered h
  | fault i =>
    simp only [Act.opens,mem_toList,bind_eq_some_iff] at h
    obtain ⟨taken,_,h⟩ := h
    cases taken with
    | reset | restoreRead | restoreWrite => exact Caller.resume_entered h
    | process | cron => cases h; trivial
    | postCheck | switchRead | switchWrite | check | recheck => cases h
  | tick => simp [Act.opens] at h
  | postConsumeDailyQuota | processDailyQuotaResets =>
    simp only [Act.opens] at h
    split at h
    · rw [mem_singleton.mp h]; trivial
    · simp at h
  | processDailyQuotaReset | checkAndHandleDailyQuotaExhaustion => rw [mem_singleton.mp h]; trivial

end LurusHub.DailyQuota
