import LurusHub.SlidingWindow
import LurusHub.TokenBucket

/-! The model rate limiter. With Redis a list has the times of the newest successes, read before a
request and pushed to after it has succeeded. Without Redis a request is checked by recording it
under a key of its own, so the requests let through are counted. -/
namespace LurusHub.ModelRateLimit
open Transition SlidingWindow List Function

structure Request where
  now : ℤ
  succeeds : Bool
  deriving DecidableEq

structure Config where
  (durationMinutes duration : ℤ)
  (totalMaxCount successMaxCount : ℕ)

/-! With Redis. -/

structure RedisList where
  items : List ℤ := []
  expiresAt : Option ℤ := none
  deriving DecidableEq

structure Redis where
  lists : String → RedisList := fun _ => {}
  buckets : String → TokenBucket.Bucket := fun _ => {}

def RedisList.live (l : RedisList) (now : ℤ) : RedisList := if l.expiresAt.any fun t => t ≤ now then {} else l

def RedisList.expire (l : RedisList) (c : Config) (now : ℤ) : RedisList :=
  { l with expiresAt := some (now+c.durationMinutes*60) }

/-- Whether a request is allowed; there is no answer where there is no time to parse. -/
def checkRedisRateLimit (c : Config) (l : RedisList) (now : ℤ) : Option Bool × RedisList :=
  if c.successMaxCount = 0 then (some true,l)
  else if l.items.length < c.successMaxCount then (some true,l)
  else
    match l.items.getLast? with
    | none => (none,l)
    | some oldTime => if now-oldTime < c.duration then (some false,l.expire c now) else (some true,l)

/-- `LPUSH`, `LTRIM` and `EXPIRE`. -/
def recordRedisRequest (c : Config) (l : RedisList) (now : ℤ) : RedisList :=
  if c.successMaxCount = 0 then l
  else RedisList.expire { l with items := (now::l.items).take c.successMaxCount } c now

def redisSuccessKey (userId : String) : String := "rateLimit:MRRLS:"++userId

/-- The total is checked by the token bucket, unless it is 0. -/
def checkTotal (c : Config) (userId : String) (db : Redis) (now : ℤ) : Bool × Redis :=
  if c.totalMaxCount = 0 then (true,db)
  else
    let x := TokenBucket.totalExecution userId c.totalMaxCount c.duration now
    let answer := TokenBucket.rateLimit (db.buckets x.key) x
    (answer.1,{ db with buckets := Function.update db.buckets x.key answer.2 })

/-- Whether the request is passed on. A check that fails passes it on without a record. -/
def redisRateLimitHandler (c : Config) (userId : String) (db : Redis) (r : Request) : Bool × Redis :=
  let check := checkRedisRateLimit c ((db.lists (redisSuccessKey userId)).live r.now) r.now
  let db := { db with lists := Function.update db.lists (redisSuccessKey userId) check.2 }
  match check.1 with
  | none => (true,db)
  | some false => (false,db)
  | some true =>
    let total := checkTotal c userId db r.now
    if total.1 && r.succeeds then
      let recorded := recordRedisRequest c (total.2.lists (redisSuccessKey userId)) r.now
      (true,{ total.2 with lists := Function.update total.2.lists (redisSuccessKey userId) recorded })
    else total

/-! Without Redis. -/

/-- The queues of `InMemoryRateLimiter`, oldest first. -/
abbrev Store := String → Option (List ℤ)

/-- A queue that is stored is never empty. -/
def request (store : Store) (key : String) (maxRequestNum : ℕ) (duration now : ℤ) : Bool × Store :=
  match store key with
  | none => (true,Function.update store key (some [now]))
  | some [] => (false,store)
  | some (oldest::queue) =>
    if queue.length+1 < maxRequestNum then (true,Function.update store key (some (oldest::queue++[now])))
    else if duration ≤ now-oldest then (true,Function.update store key (some (queue++[now])))
    else (false,store)

/-- The sweeper drops the queues whose newest time is too long ago. -/
def clearExpiredItems (expirationDuration : ℤ) (store : Store) (now : ℤ) : Store := fun key =>
  (store key).filter fun queue => queue.getLast?.any fun newest => now-newest ≤ expirationDuration

def totalKey (userId : String) : String := "MRRL"++userId
def successKey (userId : String) : String := "MRRLS"++userId
def checkKey (userId : String) : String := successKey userId++"_check"

def memoryRateLimitHandler (c : Config) (userId : String) (store : Store) (r : Request) : Bool × Store :=
  let total := if 0 < c.totalMaxCount then request store (totalKey userId) c.totalMaxCount c.duration r.now else (true,store)
  if total.1 = false then total
  else
    let check := request total.2 (checkKey userId) c.successMaxCount c.duration r.now
    if check.1 = false then check
    else if r.succeeds then (true,(request check.2 (successKey userId) c.successMaxCount c.duration r.now).2)
    else check

/-! The quota. -/

def recent (duration now : ℤ) (requests : List Request) : List Request := requests.filter fun q => now-q.now < duration

/-- Whether the quota of successes, 0 being none, has room for a request after those that it let through. -/
def Quota (c : Config) (admitted : List Request) (r : Request) : Prop :=
  c.successMaxCount = 0 ∨ ((recent c.duration r.now admitted).filter Request.succeeds).length < c.successMaxCount
  deriving Decidable

structure System where
  redis : Redis := {}
  store : Store := fun _ => none
  admitted : List Request := []

inductive Event
  | request (r : Request)
  | sweep (now : ℤ)

def Event.now : Event → ℤ
  | .request r => r.now
  | .sweep now => now

/-- One user's requests, and the sweeper, which started with a duration of its own. -/
def step (c : Config) (userId : String) (expirationDuration : ℤ) (s : System) : Event → System
  | .request r => {
      redis := (redisRateLimitHandler c userId s.redis r).2
      store := (memoryRateLimitHandler c userId s.store r).2
      admitted := if Quota c s.admitted r then r::s.admitted else s.admitted }
  | .sweep now => { s with store := clearExpiredItems expirationDuration s.store now }

/-- Both limiters do with a request what the quota says. -/
def Agree (c : Config) (userId : String) (s : System) : Event → Prop
  | .request r => ((memoryRateLimitHandler c userId s.store r).1 = true ↔ Quota c s.admitted r) ∧
      ((redisRateLimitHandler c userId s.redis r).1 = true ↔ Quota c s.admitted r)
  | .sweep _ => True

/-- Where so many recent requests were let through that the limiter without Redis has no room, the quota has none either. -/
def NoFailures (c : Config) (s : System) : Event → Prop
  | .request r => max c.successMaxCount 1 ≤ (recent c.duration r.now s.admitted).length →
      c.successMaxCount ≠ 0 ∧ c.successMaxCount ≤ ((recent c.duration r.now s.admitted).filter Request.succeeds).length
  | .sweep _ => True

/-- No key has been idle so long that it is gone, unless that is longer than the window. -/
def NotSwept (c : Config) (userId : String) (expirationDuration : ℤ) (s : System) : Event → Prop
  | .request r => c.duration ≤ c.durationMinutes*60 ∨
      (s.redis.lists (redisSuccessKey userId)).live r.now = s.redis.lists (redisSuccessKey userId)
  | .sweep now => c.duration ≤ expirationDuration ∨
      clearExpiredItems expirationDuration s.store now (checkKey userId) = s.store (checkKey userId)

instance (c : Config) (s : System) : ∀ e, Decidable (NoFailures c s e)
  | .request _ => by dsimp only [NoFailures]; infer_instance
  | .sweep _ => .isTrue trivial

instance (c : Config) (userId : String) (expirationDuration : ℤ) (s : System) :
    ∀ e, Decidable (NotSwept c userId expirationDuration s e)
  | .request _ | .sweep _ => by dsimp only [NotSwept]; infer_instance

/-! The queue of a key. -/

def times (store : Store) (key : String) : List ℤ := ((store key).getD []).reverse

lemma request_other (h : key' ≠ key) : (request store key n duration now).2 key' = store key' := by
  unfold request
  split
  · exact update_of_ne h _ _
  · rfl
  · split_ifs
    · exact update_of_ne h _ _
    · exact update_of_ne h _ _
    · rfl

theorem request_eq (hsto : store key ≠ some []) (h : Remembers (max n 1) duration (times store key) log now) :
    request store key n duration now = if max n 1 ≤ (since (now-duration) log).length then (false,store)
      else (true,Function.update store key (some ((now::times store key).take (max n 1)).reverse)) := by
  have hshort := h.short
  simp only [h.full_iff (by omega),request]
  rw [times] at hshort ⊢
  cases hq : store key with
  | none => simp [take_of_length_le]
  | some queue =>
    cases queue with
    | nil => exact absurd hq hsto
    | cons oldest queue =>
      simp only [hq,Option.getD_some,length_reverse,length_cons,getLast?_reverse,head?_cons,Option.mem_def,
        Option.some.injEq,forall_eq'] at hshort ⊢
      split_ifs with hroom hfull hleft hfull hfull
      · omega
      · rw [take_of_length_le (by simp; omega)]
        simp
      · omega
      · -- The queue is full: the oldest time is the one that does not fit.
        have hlen : max n 1 = (now::queue.reverse).length := by simp; omega
        rw [reverse_cons,← cons_append,hlen,take_left,reverse_cons,reverse_reverse]
      · rfl
      · omega

/-! The list of a key. -/

def successes (requests : List Request) : List ℤ := (requests.filter Request.succeeds).map Request.now

lemma length_since_map :
    (since (now-duration) (requests.map Request.now)).length = (recent duration now requests).length := by
  rw [since,filter_map,length_map]
  congr 1
  refine filter_congr fun q _ => ?_
  simp only [comp_apply,decide_eq_decide]
  omega

lemma length_since_successes :
    (since (now-duration) (successes requests)).length = ((recent duration now requests).filter Request.succeeds).length := by
  rw [successes,length_since_map,recent,recent,filter_filter,filter_filter]
  congr 1
  refine filter_congr fun q _ => ?_
  exact Bool.and_comm _ _

structure Lists (c : Config) (l : RedisList) (requests : List Request) (now : ℤ) : Prop where
  remembers : Remembers c.successMaxCount c.duration l.items (successes requests) now
  expiry : ∀ x ∈ l.expiresAt, ∀ t ∈ successes requests, t+c.durationMinutes*60 ≤ x

section List
variable {l : RedisList}

lemma lists_live (h : Lists c l requests now) (hswe : c.duration ≤ c.durationMinutes*60 ∨ l.live now = l) :
    Lists c (l.live now) requests now := by
  rcases hswe with hle | hsame
  · unfold RedisList.live
    split_ifs with hexpired
    · obtain ⟨x,hx,hnow⟩ := Option.any_eq_true _ _ |>.mp hexpired
      rw [decide_eq_true_eq] at hnow
      refine ⟨h.remembers.forget fun t ht => ?_,nofun⟩
      have hbefore := h.expiry x hx t ht
      omega
    · exact h
  · rw [hsame]
    exact h

lemma lists_expire (h : Remembers c.successMaxCount c.duration l.items (successes requests) now) :
    Lists c (l.expire c now) requests now := by
  refine ⟨h,fun x hx t ht => ?_⟩
  cases hx
  have hpast := h.past t ht
  omega

section
variable (h : Lists c l requests now)
include h

lemma checkRedisRateLimit_eq (hmax : c.successMaxCount ≠ 0) : (checkRedisRateLimit c l now).1 =
      some (decide (((recent c.duration now requests).filter Request.succeeds).length < c.successMaxCount)) := by
  have hfull := h.remembers.full_iff (Nat.pos_of_ne_zero hmax)
  rw [length_since_successes] at hfull
  unfold checkRedisRateLimit
  rw [if_neg hmax]
  split_ifs with hroom
  · have hlt := hfull.not.mpr fun hcond => absurd hroom (not_lt.mpr hcond.1)
    simp [not_le.mp hlt]
  · have hne : l.items ≠ [] := ne_nil_of_length_pos (by omega)
    rw [getLast?_eq_some_getLast hne] at hfull ⊢
    simp only [Option.mem_def,Option.some.injEq,forall_eq'] at hfull
    dsimp only
    split_ifs with hwit
    · have hle := hfull.mpr ⟨not_lt.mp hroom,by omega⟩
      simp [not_lt.mpr hle]
    · have hlt := hfull.not.mpr fun hcond => by omega
      simp [not_le.mp hlt]

lemma lists_check : Lists c (checkRedisRateLimit c l now).2 requests now := by
  unfold checkRedisRateLimit
  split_ifs
  · exact h
  · exact h
  · split
    · exact h
    · split_ifs
      · exact lists_expire h.remembers
      · exact h

lemma lists_record (hmax : c.successMaxCount ≠ 0) (hr : r.now = now)
    (hsuc : r.succeeds) : Lists c (recordRedisRequest c l now) (r::requests) now := by
  have hlog : successes (r::requests) = now::successes requests := by
    simp [successes,hsuc,hr]
  rw [recordRedisRequest,if_neg hmax]
  refine lists_expire ?_
  rw [hlog]
  exact h.remembers.record

lemma lists_failed (hfails : r.succeeds = false) : Lists c l (r::requests) now := by
  have hlog : successes (r::requests) = successes requests := by simp [successes,hfails]
  exact ⟨hlog ▸ h.remembers,hlog ▸ h.expiry⟩

end

end List

lemma Lists.later (h : Lists c l requests now)
    (hle : now ≤ now') : Lists c l requests now' := ⟨h.remembers.later hle,h.expiry⟩

/-! Both limiters against the quota. -/

structure Tracks (c : Config) (userId : String) (s : System) (t : ℤ) : Prop where
  stored : s.store (checkKey userId) ≠ some []
  queue : Remembers (max c.successMaxCount 1) c.duration (times s.store (checkKey userId)) (s.admitted.map Request.now) t
  list : c.successMaxCount ≠ 0 → Lists c (s.redis.lists (redisSuccessKey userId)) s.admitted t

lemma Tracks.later (h : Tracks c uid s t) (hle : t ≤ t') :
    Tracks c uid s t' := ⟨h.stored,h.queue.later hle,fun hmax => (h.list hmax).later hle⟩

lemma tracks_start (c : Config) (uid : String) (t : ℤ) : Tracks c uid {} t :=
  ⟨nofun,remembers_nil _ _ _,fun _ => ⟨remembers_nil _ _ _,nofun⟩⟩

section Handlers
variable {c : Config}

lemma successKey_ne : checkKey userId ≠ successKey userId := by
  intro h
  have hlen := congrArg String.length h
  simp [checkKey] at hlen

section
variable (htotal : c.totalMaxCount = 0)
include htotal

lemma memory_fst (store : Store) :
    (memoryRateLimitHandler c uid store r).1 = (request store (checkKey uid) c.successMaxCount c.duration r.now).1 := by
  simp only [memoryRateLimitHandler,htotal,lt_irrefl,if_false,Bool.true_eq_false]
  split_ifs with hden
  · rfl
  · exact (Bool.not_eq_false _ ▸ hden).symm
  · rfl

lemma memory_snd (store : Store) : (memoryRateLimitHandler c uid store r).2 (checkKey uid) =
      (request store (checkKey uid) c.successMaxCount c.duration r.now).2 (checkKey uid) := by
  simp only [memoryRateLimitHandler,htotal,lt_irrefl,if_false,Bool.true_eq_false]
  split_ifs
  · rfl
  · exact request_other successKey_ne
  · rfl

lemma memory_admits (h : Tracks c uid s r.now) : (memoryRateLimitHandler c uid s.store r).1 ↔
      (recent c.duration r.now s.admitted).length < max c.successMaxCount 1 := by
  rw [memory_fst htotal,request_eq h.stored h.queue,length_since_map,← not_le]
  split_ifs with hfull <;> simp [hfull]

lemma redis_eq (db : Redis)
    (hche : checkRedisRateLimit c ((db.lists (redisSuccessKey uid)).live r.now) r.now = (some b,l)) :
    (redisRateLimitHandler c uid db r).1 = b ∧
    (redisRateLimitHandler c uid db r).2.lists (redisSuccessKey uid) =
      if b && r.succeeds then recordRedisRequest c l r.now else l := by
  cases b with
  | false => simp [redisRateLimitHandler,hche]
  | true => cases hsuc : r.succeeds <;> simp [redisRateLimitHandler,hche,checkTotal,htotal,hsuc]

lemma redis_admits (h : Tracks c uid s r.now) (hswe : c.duration ≤ c.durationMinutes*60 ∨
      (s.redis.lists (redisSuccessKey uid)).live r.now = s.redis.lists (redisSuccessKey uid)) :
    ((redisRateLimitHandler c uid s.redis r).1 ↔ Quota c s.admitted r) ∧
    (c.successMaxCount ≠ 0 → Lists c ((redisRateLimitHandler c uid s.redis r).2.lists (redisSuccessKey uid))
      (if Quota c s.admitted r then r::s.admitted else s.admitted) r.now) := by
  by_cases hmax : c.successMaxCount = 0
  · obtain ⟨hans,-⟩ := redis_eq htotal s.redis (if_pos hmax)
    exact ⟨⟨fun _ => .inl hmax,fun _ => hans⟩,fun hne => absurd hmax hne⟩
  · have hlive := lists_live (h.list hmax) hswe
    have hquota : Quota c s.admitted r ↔
        ((recent c.duration r.now s.admitted).filter Request.succeeds).length < c.successMaxCount :=
      or_iff_right hmax
    have hche := checkRedisRateLimit_eq hlive hmax
    rw [← decide_eq_decide.mpr hquota] at hche
    obtain ⟨hans,hlist⟩ := redis_eq htotal s.redis (Prod.ext hche rfl)
    rw [hans,hlist,decide_eq_true_eq]
    refine ⟨Iff.rfl,fun _ => ?_⟩
    have hchec := lists_check hlive
    split_ifs with hreco hroom hroom
    · exact lists_record hchec hmax rfl (Bool.and_eq_true_iff.mp hreco).2
    · simp [hroom] at hreco
    · exact lists_failed hchec (by simpa [hroom] using hreco)
    · exact hchec

end

theorem agree_iff (htotal : c.totalMaxCount = 0) (e : Event) (h : Tracks c uid s e.now)
    (hswe : NotSwept c uid expirationDuration s e) : Agree c uid s e ↔ NoFailures c s e := by
  cases e with
  | sweep now => exact Iff.rfl
  | request r =>
    have hle : ((recent c.duration r.now s.admitted).filter Request.succeeds).length ≤
        (recent c.duration r.now s.admitted).length := length_filter_le _ _
    rw [Agree,and_iff_left (redis_admits htotal h hswe).1,memory_admits htotal h,NoFailures,Quota]
    omega

lemma queue_request (htotal : c.totalMaxCount = 0) (h : Tracks c uid s r.now)
    (hagr : (memoryRateLimitHandler c uid s.store r).1 ↔ Quota c s.admitted r) :
    Remembers (max c.successMaxCount 1) c.duration (times (memoryRateLimitHandler c uid s.store r).2 (checkKey uid))
      ((if Quota c s.admitted r then r::s.admitted else s.admitted).map Request.now) r.now := by
  rw [memory_admits htotal h] at hagr
  rw [times,memory_snd htotal,request_eq h.stored h.queue,length_since_map]
  simp only [← not_lt,hagr,ite_not]
  split_ifs with hroom
  · simpa using h.queue.record
  · exact h.queue

theorem queue_sweep (h : Tracks c uid s now)
    (hswe : NotSwept c uid expirationDuration s (.sweep now)) :
    Remembers (max c.successMaxCount 1) c.duration (times (clearExpiredItems expirationDuration s.store now) (checkKey uid))
      (s.admitted.map Request.now) now := by
  by_cases hsame : clearExpiredItems expirationDuration s.store now (checkKey uid) = s.store (checkKey uid)
  · rw [times,hsame]
    exact h.queue
  · have hle := hswe.resolve_right hsame
    cases hq : s.store (checkKey uid) with
    | none => exact absurd (by simp [clearExpiredItems,hq]) hsame
    | some queue =>
      have hold : ¬queue.getLast?.any fun newest => now-newest ≤ expirationDuration := fun hkeep =>
        hsame (by simp only [clearExpiredItems,hq,Option.filter_some,if_pos hkeep])
      rw [times,clearExpiredItems,hq,Option.filter_some,if_neg hold]
      refine h.queue.forget (h.queue.old_of_newest (by omega) fun t ht => ?_)
      rw [times,hq,Option.getD_some,head?_reverse] at ht
      rw [Option.mem_def.mp ht,Option.any_some,decide_eq_true_eq] at hold
      omega

lemma tracks_step (htotal : c.totalMaxCount = 0) (e : Event) (h : Tracks c uid s e.now)
    (hswe : NotSwept c uid expiry s e) (hagr : Agree c uid s e) :
    Tracks c uid (step c uid expiry s e) e.now := by
  cases e with
  | sweep now =>
    refine ⟨fun hnil => ?_,queue_sweep h hswe,h.list⟩
    simp [step,clearExpiredItems] at hnil
  | request r =>
    have h : Tracks c uid s r.now := h
    refine ⟨?_,queue_request htotal h hagr.1,(redis_admits htotal h hswe).2⟩
    change (memoryRateLimitHandler c uid s.store r).2 (checkKey uid) ≠ some []
    rw [memory_snd htotal,request_eq h.stored h.queue]
    split_ifs
    · exact h.stored
    · simp

end Handlers

/-- Both limiters keep the quota exactly if no failed request fills the one without Redis. -/
theorem limiters_agree_iff {c : Config} (htotal : c.totalMaxCount = 0) (userId : String) (expirationDuration : ℤ)
    {events : List Event} (htimes : (events.map Event.now).Pairwise (· ≤ ·))
    (hswept : Along (step c userId expirationDuration) (NotSwept c userId expirationDuration) {} events) :
    Along (step c userId expirationDuration) (Agree c userId) {} events ↔
      Along (step c userId expirationDuration) (NoFailures c) {} events :=
  along_iff_timed (I := Tracks c userId) (fun _ _ _ h hle => h.later hle) (fun _ e h hH => agree_iff htotal e h hH)
    (fun _ e h hH hG => tracks_step htotal e h hH hG) htimes (fun e _ => tracks_start c userId e.now) hswept

def twoPerMinute : Config := ⟨1,60,0,2⟩

def noQuota : Config := { twoPerMinute with successMaxCount := 0 }

theorem limiters_disagree_failure : (memoryRateLimitHandler twoPerMinute "1"
      (run (step twoPerMinute "1" 60) {} [.request ⟨0,false⟩,.request ⟨0,false⟩]).store ⟨1,true⟩).1 = false ∧
    (redisRateLimitHandler twoPerMinute "1"
      (run (step twoPerMinute "1" 60) {} [.request ⟨0,false⟩,.request ⟨0,false⟩]).redis ⟨1,true⟩).1 = true ∧
    (memoryRateLimitHandler noQuota "1" (run (step noQuota "1" 60) {} [.request ⟨0,true⟩]).store ⟨1,true⟩).1 = false ∧
    (redisRateLimitHandler noQuota "1" (run (step noQuota "1" 60) {} [.request ⟨0,true⟩]).redis ⟨1,true⟩).1 = true := by
  decide +kernel

def successfulMinute : List Event :=
  [.request ⟨0,true⟩,.request ⟨10,true⟩,.request ⟨20,true⟩,.sweep 50,.request ⟨60,true⟩]

theorem limiters_agree_successes : Along (step twoPerMinute "1" 60) (Agree twoPerMinute "1") {} successfulMinute :=
  (limiters_agree_iff rfl "1" 60 (by decide) (by decide +kernel)).mpr (by decide +kernel)

end LurusHub.ModelRateLimit
