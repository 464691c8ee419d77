import LurusHub.KeyedRuns
import LurusHub.MeteredSpending

/-! The token bucket of the model rate limiter, a script that Redis runs as one step. The tokens are
raised by the time that has passed, cut off at the capacity, and lowered by what is granted. -/
namespace LurusHub.TokenBucket
open Transition MeteredSpending

structure Bucket where
  tokens : Option ℤ := none
  lastTime : Option ℤ := none
  deriving DecidableEq

structure Execution where
  key : String
  (requested rate capacity nowInSeconds : ℤ)

/-- A bucket without both fields starts full. -/
def refill (bucket : Bucket) (x : Execution) : ℤ :=
  match bucket.tokens,bucket.lastTime with
  | some tokens,some lastTime =>
    let elapsed := x.nowInSeconds-lastTime
    let addTokens := elapsed*x.rate
    min x.capacity (tokens+addTokens)
  | _,_ => x.capacity

/-- `rate_limit.lua`: whether the request is allowed, and the fields that are set. -/
def rateLimit (bucket : Bucket) (x : Execution) : Bool × Bucket :=
  let tokens := refill bucket x
  if x.requested ≤ tokens then (true,⟨some (tokens-x.requested),some x.nowInSeconds⟩)
  else (false,⟨some tokens,some x.nowInSeconds⟩)

structure Account where
  bucket : Bucket := {}
  granted : List (ℤ × ℤ) := []
  deriving DecidableEq

def serve (a : Account) (x : Execution) : Account where
  bucket := (rateLimit a.bucket x).2
  granted := if (rateLimit a.bucket x).1 then (x.nowInSeconds,x.requested)::a.granted else a.granted

def accounts (xs : List Execution) : String → Account := run (stepAt Execution.key serve) (fun _ => {}) xs

/-! One bucket. -/

structure Execution.Has (x : Execution) (key : String) (requested rate capacity : ℤ) : Prop where
  key : x.key = key
  requested : x.requested = requested
  rate : x.rate = rate
  capacity : x.capacity = capacity

/-- At the time `t` the bucket is new, or its tokens are what was left of the allowance by the last execution. -/
def Tracks (rate capacity : ℤ) (a : Account) (t : ℤ) : Prop :=
  a = {} ∨ ∃ tokens lastTime, a.bucket = ⟨some tokens,some lastTime⟩ ∧ lastTime ≤ t ∧
    Metered capacity rate a.granted lastTime tokens

lemma Tracks.later (h : Tracks rate cap a t) (hle : t ≤ t') : Tracks rate cap a t' := by
  rcases h with rfl | ⟨tokens,lastTime,hbuc,hlast,hmet⟩
  · exact .inl rfl
  · exact .inr ⟨tokens,lastTime,hbuc,hlast.trans hle,hmet⟩

lemma metered_refill (h : Tracks rate capacity a x.nowInSeconds) (hrate : 0 ≤ rate) (hcap : 0 ≤ capacity)
    (hx : x.Has key requested rate capacity) : Metered capacity rate a.granted x.nowInSeconds (refill a.bucket x) := by
  rcases h with rfl | ⟨tokens,lastTime,hbuc,hlast,hmet⟩
  · have hfull : refill {} x = capacity := hx.capacity
    rw [hfull]
    exact Metered.start hcap hrate _
  · have heq : refill a.bucket x = min capacity (tokens+rate*(x.nowInSeconds-lastTime)) := by
      rw [hbuc,refill,hx.capacity,hx.rate,mul_comm]
    rw [heq]
    exact hmet.wait hrate hlast

lemma tracks_serve (h : Tracks rate cap a x.nowInSeconds) (hrate : 0 ≤ rate) (hcap : 0 ≤ cap)
    (hreq : 0 ≤ requested) (hx : x.Has key requested rate cap) :
    Tracks rate cap (serve a x) x.nowInSeconds := by
  have hmet := metered_refill h hrate hcap hx
  by_cases hallow : x.requested ≤ refill a.bucket x
  · refine .inr ⟨refill a.bucket x-x.requested,x.nowInSeconds,by simp [serve,rateLimit,hallow],le_refl _,?_⟩
    simp only [serve,rateLimit,if_pos hallow]
    exact hmet.spend hrate (hx.requested ▸ hreq) hallow
  · refine .inr ⟨refill a.bucket x,x.nowInSeconds,by simp [serve,rateLimit,hallow],le_refl _,?_⟩
    simp only [serve,rateLimit,if_neg hallow]
    exact hmet

structure WithinBudget (rate capacity : ℤ) (a : Account) : Prop where
  granted : ∀ s e, s ≤ e → spent s e a.granted ≤ capacity+rate*(e-s)
  stored : ∀ tokens, a.bucket.tokens = some tokens → 0 ≤ tokens ∧ tokens ≤ capacity

lemma withinBudget_of_tracks (h : Tracks rate cap a t) (hrate : 0 ≤ rate)
    (hcap : 0 ≤ cap) : WithinBudget rate cap a := by
  rcases h with rfl | ⟨tokens,lastTime,hbuc,-,hmet⟩
  · exact ⟨(Metered.start hcap hrate 0).bound,nofun⟩
  · refine ⟨hmet.bound,fun t ht => ?_⟩
    rw [hbuc] at ht
    cases ht
    exact ⟨hmet.left_nonneg,hmet.left_le⟩

lemma lt_of_refused (h : (rateLimit bucket x).1 = false) : refill bucket x < x.requested := by
  by_contra hle
  simp [rateLimit,not_lt.mp hle] at h

/-! The buckets of a database. -/

lemma tracks_accounts (hrate : 0 ≤ rate) (hcap : 0 ≤ capacity) (hreq : 0 ≤ requested)
    (hxs : ∀ x ∈ xs, x.key = key → x.Has key requested rate capacity)
    (htim : ((labelsOf Execution.key key xs).map Execution.nowInSeconds).Pairwise (· ≤ ·))
    (ht : ∀ x ∈ xs, x.key = key → x.nowInSeconds ≤ t) : Tracks rate capacity (accounts xs key) t := by
  have hhas : ∀ x ∈ labelsOf Execution.key key xs, x.Has key requested rate capacity := fun x hx =>
    hxs x (mem_labelsOf.mp hx).1 (mem_labelsOf.mp hx).2
  rw [accounts,run_stepAt]
  refine run_timed (fun _ _ _ h hle => h.later hle) (fun _ _ h hx => tracks_serve h hrate hcap hreq hx) htim hhas
    (fun x hx => ?_) fun _ => .inl rfl
  exact ht x (mem_labelsOf.mp hx).1 (mem_labelsOf.mp hx).2

/-- The executions on a key keep within its budget, and refuse only what would exceed it. -/
theorem rateLimit_budget {key : String} {requested rate capacity : ℤ} (hrequested : 0 < requested) (hrate : 0 < rate)
    (hcapacity : 0 < capacity) {xs : List Execution} (hxs : ∀ x ∈ xs, x.key = key → x.Has key requested rate capacity)
    (htimes : ((labelsOf Execution.key key xs).map Execution.nowInSeconds).Pairwise (· ≤ ·)) :
    WithinBudget rate capacity (accounts xs key) ∧
    ∀ x : Execution, x.Has key requested rate capacity → (∀ y ∈ xs, y.key = key → y.nowInSeconds ≤ x.nowInSeconds) →
      (rateLimit (accounts xs key).bucket x).1 = false →
      ∃ s ≤ x.nowInSeconds, capacity+rate*(x.nowInSeconds-s) < spent s x.nowInSeconds (accounts xs key).granted+requested := by
  have htracks : ∀ t, (∀ x ∈ xs, x.key = key → x.nowInSeconds ≤ t) → Tracks rate capacity (accounts xs key) t := fun t =>
    tracks_accounts hrate.le hcapacity.le hrequested.le hxs htimes
  obtain ⟨t,ht⟩ := exists_after Execution.nowInSeconds xs
  refine ⟨withinBudget_of_tracks (htracks t fun x hx _ => ht x hx) hrate.le hcapacity.le,fun x hx hafter href => ?_⟩
  have hmet := metered_refill (htracks _ hafter) hrate.le hcapacity.le hx
  exact hmet.exceeds (hx.requested ▸ lt_of_refused href)

def twoUsers : List Execution :=
  [⟨"a",4,1,10,100⟩,⟨"a",4,1,10,100⟩,⟨"b",1,1,1,100⟩,⟨"a",4,1,10,101⟩,⟨"a",4,1,10,102⟩]

theorem rateLimit_budget_twoUsers :
    WithinBudget 1 10 (accounts twoUsers "a") ∧ (accounts twoUsers "a").granted = [(102,4),(100,4),(100,4)] ∧
    (rateLimit (accounts twoUsers "a").bucket ⟨"a",4,1,10,105⟩).1 = false ∧
    ∃ s ≤ 105, 10+1*(105-s) < spent s 105 (accounts twoUsers "a").granted+4 := by
  have hxs : ∀ x ∈ twoUsers, x.key = "a" → x.Has "a" 4 1 10 := by
    intro x hx hkey
    simp only [twoUsers,List.mem_cons,List.not_mem_nil,or_false] at hx
    rcases hx with rfl | rfl | rfl | rfl | rfl
    · exact ⟨rfl,rfl,rfl,rfl⟩
    · exact ⟨rfl,rfl,rfl,rfl⟩
    · exact absurd hkey (by decide)
    · exact ⟨rfl,rfl,rfl,rfl⟩
    · exact ⟨rfl,rfl,rfl,rfl⟩
  obtain ⟨hbud,href⟩ := rateLimit_budget (by decide) (by decide) (by decide) hxs (by decide +kernel)
  exact ⟨hbud,by decide +kernel,by decide +kernel,
    href ⟨"a",4,1,10,105⟩ ⟨rfl,rfl,rfl,rfl⟩ (by decide +kernel) (by decide +kernel)⟩

/-! The total of the model rate limiter. -/

def totalExecution (userId : String) (totalMaxCount duration nowInSeconds : ℤ) : Execution where
  key := "rateLimit:"++userId
  requested := duration
  rate := totalMaxCount
  capacity := totalMaxCount*duration
  nowInSeconds := nowInSeconds

end LurusHub.TokenBucket
