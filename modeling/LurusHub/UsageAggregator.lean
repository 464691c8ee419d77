import LurusHub.KeyedTotals
import LurusHub.Transition
import Mathlib.Tactic.Abel

/-! The usage aggregator. A flush takes the whole map, stores its buckets without the lock and, if that fails,
merges them into whatever the map holds by then. -/
namespace LurusHub.UsageAggregator
open KeyedTable Transition

local instance sums : AddCommGroup Int64 := int64Group

structure UsageBucket where
  (tenantID modelName : String)
  (channelID windowStart duration : ℤ)
  requestCount : Int64 := 0
  errorCount : Int64 := 0
  inputTokens : Int64 := 0
  outputTokens : Int64 := 0
  totalLatency : Float := 0
  quotaConsumed : Int64 := 0
  costCNY : Float := 0

structure BucketKey where
  (tenantID modelName : String)
  (channelID windowStart : ℤ)
  deriving DecidableEq

structure UsageEvent where
  (tenantID modelName : String)
  (channelID timestamp : ℤ)
  (inputTokens outputTokens : Int64)
  latencySec : Float
  quota : Int64
  costCNY : Float
  success : Bool

def unix (t : ℤ) : ℤ := t/1000000000-62135596800

def truncate (t d : ℤ) : ℤ := if d ≤ 0 then t else t-t%d

def UsageBucket.key (b : UsageBucket) : BucketKey := ⟨b.tenantID,b.modelName,b.channelID,unix b.windowStart⟩

abbrev Buckets := KeyedTable UsageBucket BucketKey UsageBucket.key

def UsageBucket.observe (e : UsageEvent) (b : UsageBucket) : UsageBucket :=
  { b with
    requestCount := b.requestCount+1
    inputTokens := b.inputTokens+e.inputTokens
    outputTokens := b.outputTokens+e.outputTokens
    totalLatency := b.totalLatency+e.latencySec
    quotaConsumed := b.quotaConsumed+e.quota
    costCNY := b.costCNY+e.costCNY
    errorCount := if e.success then b.errorCount else b.errorCount+1 }

def UsageBucket.add (b existing : UsageBucket) : UsageBucket :=
  { existing with
    requestCount := existing.requestCount+b.requestCount
    errorCount := existing.errorCount+b.errorCount
    inputTokens := existing.inputTokens+b.inputTokens
    outputTokens := existing.outputTokens+b.outputTokens
    totalLatency := existing.totalLatency+b.totalLatency
    quotaConsumed := existing.quotaConsumed+b.quotaConsumed
    costCNY := existing.costCNY+b.costCNY }

def firstBucket (windowSize : ℤ) (e : UsageEvent) : UsageBucket :=
  { tenantID := e.tenantID, modelName := e.modelName, channelID := e.channelID,
    windowStart := truncate e.timestamp windowSize, duration := windowSize }

def record (windowSize : ℤ) (e : UsageEvent) (buckets : Buckets) : Buckets :=
  buckets.upsert ((firstBucket windowSize e).observe e) (.observe e) fun _ => rfl

def merge (failed : List UsageBucket) (buckets : Buckets) : Buckets :=
  failed.foldl (fun t b => t.upsert b b.add fun _ => rfl) buckets

structure State where
  buckets : Buckets := .empty
  flushes : List (List UsageBucket) := []
  stored : List UsageBucket := []

inductive Event
  | record (e : UsageEvent)
  | swap
  | finish (i : ℕ) (fails : Bool)

def step (windowSize : ℤ) (s : State) : Event → State
  | .record e => { s with buckets := record windowSize e s.buckets }
  | .swap =>
    if s.buckets.rows = [] then s else { s with buckets := .empty, flushes := s.flushes++[s.buckets.rows] }
  | .finish i fails =>
    match s.flushes[i]? with
    | none => s
    | some failed =>
      { s with
        flushes := s.flushes.set i []
        buckets := if fails then merge failed s.buckets else s.buckets
        stored := if fails then s.stored else s.stored++failed }

inductive Count
  | requests | errors | inputTokens | outputTokens | quota

def UsageBucket.count (b : UsageBucket) : Count → Int64
  | .requests => b.requestCount
  | .errors => b.errorCount
  | .inputTokens => b.inputTokens
  | .outputTokens => b.outputTokens
  | .quota => b.quotaConsumed

def UsageEvent.count (e : UsageEvent) : Count → Int64
  | .requests => 1
  | .errors => if e.success then 0 else 1
  | .inputTokens => e.inputTokens
  | .outputTokens => e.outputTokens
  | .quota => e.quota

/-- What a bucket adds to a count of the key. -/
def weight (c : Count) (k : BucketKey) (b : UsageBucket) : Int64 := if b.key = k then b.count c else 0

def total (c : Count) (k : BucketKey) (buckets : List UsageBucket) : Int64 := (buckets.map (weight c k)).sum

def Event.count (windowSize : ℤ) (c : Count) (k : BucketKey) : Event → Int64
  | .record e => if (firstBucket windowSize e).key = k then e.count c else 0
  | .swap | .finish _ _ => 0

/-- The total of the `Record` calls of a run. -/
def recordedTotal (windowSize : ℤ) (c : Count) (k : BucketKey) (events : List Event) : Int64 :=
  (events.map (Event.count windowSize c k)).sum

/-- What is stored, in the live map and held by the flushes in progress. -/
def kept (c : Count) (k : BucketKey) (s : State) : Int64 :=
  total c k s.stored+total c k s.buckets.rows+(s.flushes.map (total c k)).sum

lemma count_observe : (UsageBucket.observe e b).count c = b.count c+e.count c := by
  cases c with
  | errors => cases hs : e.success <;> simp [UsageBucket.observe,UsageBucket.count,UsageEvent.count,hs]
  | requests | inputTokens | outputTokens | quota => rfl

lemma total_record (t : Buckets) : total c k (record win e t).rows =
    total c k t.rows+if (firstBucket win e).key = k then e.count c else 0 := by
  have hfirst : weight c k ((firstBucket win e).observe e) =
      if (firstBucket win e).key = k then e.count c else 0 := by
    have hzero : (firstBucket win e).count c = 0 := by cases c <;> rfl
    rw [weight,count_observe,hzero,zero_add]
    rfl
  rw [← hfirst]
  refine total_upsert fun b _ hb => ?_
  have hkey : b.key = (firstBucket win e).key := hb
  rw [hfirst,weight,count_observe,weight,← hkey]
  split <;> simp_all [UsageBucket.observe,UsageBucket.key]

lemma total_add (b : UsageBucket) (t : Buckets) :
    total c k (t.upsert b b.add fun _ => rfl).rows = total c k t.rows+weight c k b := by
  refine total_upsert fun q _ hq => ?_
  have hkey : (b.add q).key = b.key := hq
  have hcount : (b.add q).count c = q.count c+b.count c := by cases c <;> rfl
  rw [weight,weight,weight,hkey,hq,hcount]
  split <;> simp

lemma total_merge (failed : List UsageBucket) (t : Buckets) :
    total c k (merge failed t).rows = total c k t.rows+total c k failed := by
  induction failed generalizing t with
  | nil => simp [merge,total]
  | cons b failed ih =>
    refine (ih _).trans ?_
    rw [total_add,add_assoc]
    rfl

lemma kept_step (c : Count) (k : BucketKey) (s : State) (e : Event) :
    kept c k (step win s e) = kept c k s+e.count win c k := by
  unfold kept
  cases e with
  | record e =>
    simp only [step,total_record,Event.count]
    abel
  | swap =>
    rw [step,Event.count,add_zero]
    split
    · rfl
    · simp [total,empty]
      abel
  | finish i fails =>
    rw [step,Event.count,add_zero]
    split
    · rfl
    · next failed hi =>
      have hnil : total c k [] = 0 := rfl
      have happ : total c k (s.stored++failed) = total c k s.stored+total c k failed := by simp [total]
      rw [sum_map_set hi,hnil]
      cases fails <;> simp only [Bool.false_eq_true,if_true,if_false,happ,total_merge] <;> abel

theorem usage_conserved (windowSize : ℤ) (events : List Event) (c : Count) (k : BucketKey) :
    kept c k (run (step windowSize) {} events) = recordedTotal windowSize c k events := by
  have hall : Along (step windowSize) (fun _ _ => True) {} events := along_of_forall (fun _ _ _ => trivial) _
  refine (run_total_labels (I := fun _ => True) (fun _ _ _ _ => trivial) ?_ trivial hall).trans (zero_add _)
  exact fun s e _ _ => kept_step c k s e

def call (success : Bool) : UsageEvent := ⟨"t","m",1,90,3,4,0,5,0,success⟩

/-- The first flush fails after another call was recorded, the second stores, and a third is in progress. -/
def overlapping : List Event :=
  [.record (call true),.swap,.record (call false),.finish 0 true,.swap,.finish 1 false,.record (call true),.swap,
    .record (call true)]

theorem usage_conserved_overlapping :
    let k := (firstBucket 60 (call true)).key
    let s := run (step 60) {} overlapping
    total .errors k s.stored = 1 ∧ total .quota k s.stored = 10 ∧ total .quota k s.buckets.rows = 5 ∧
      s.flushes.map (total .quota k) = [0,0,5] ∧ kept .quota k s = recordedTotal 60 .quota k overlapping :=
  ⟨by decide +kernel,by decide +kernel,by decide +kernel,by decide +kernel,usage_conserved 60 overlapping .quota _⟩

end LurusHub.UsageAggregator
