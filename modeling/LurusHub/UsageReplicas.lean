import LurusHub.KeyedTotals
import LurusHub.Transition
import Mathlib.Algebra.Group.Prod
import Mathlib.Tactic.Abel

/-! The usage dashboard with several processes on one table. A flush looks each bucket up and then
inserts it or adds it to every row of the bucket; nothing keeps a second row from being inserted. -/
namespace LurusHub.UsageReplicas
open KeyedTable List Transition

local instance sums : AddCommGroup Int64 := int64Group

structure QuotaData where
  userID : ℤ
  (username modelName : String)
  createdAt : ℤ
  (count quota tokenUsed : Int64)
  deriving DecidableEq

abbrev Amounts := Int64 × Int64 × Int64

namespace QuotaData

def cacheKey (d : QuotaData) : String :=
  toString d.userID++"-"++d.username++"-"++d.modelName++"-"++toString d.createdAt

/-- The columns of the `WHERE` clause. -/
def bucket (d : QuotaData) : ℤ × String × String × ℤ := (d.userID,d.username,d.modelName,d.createdAt)

def amounts (d : QuotaData) : Amounts := (d.count,d.quota,d.tokenUsed)

def add (b d : QuotaData) : QuotaData :=
  { d with count := d.count+b.count, quota := d.quota+b.quota, tokenUsed := d.tokenUsed+b.tokenUsed }

end QuotaData
open QuotaData

abbrev Cache := KeyedTable QuotaData String cacheKey

def quotaEntry (userID : ℤ) (username modelName : String) (quota : Int64) (createdAt : ℤ)
    (tokenUsed : Int64) : QuotaData :=
  ⟨userID,username,modelName,createdAt-createdAt.tmod 3600,1,quota,tokenUsed⟩

def logQuotaDataCache (entry : QuotaData) (cache : Cache) : Cache := cache.upsert entry entry.add fun _ => rfl

def increaseQuotaData (b : QuotaData) (table : List QuotaData) : List QuotaData :=
  table.map fun d => if d.bucket = b.bucket then b.add d else d

structure Flush where
  pending : List QuotaData
  found : Option Bool := none

structure State where
  caches : List Cache
  flushes : List Flush := []
  table : List QuotaData := []

inductive Event
  | log (i : ℕ) (userID : ℤ) (username modelName : String) (quota : Int64) (createdAt : ℤ) (tokenUsed : Int64)
  | take (i : ℕ) (snapshot : List QuotaData)
  | lookup (j : ℕ)
  | write (j : ℕ)

def logEntry (s : State) (i : ℕ) (entry : QuotaData) : State :=
  match s.caches[i]? with
  | some c => { s with caches := s.caches.set i (logQuotaDataCache entry c) }
  | none => s

def step (s : State) : Event → State
  | .log i userID username modelName quota createdAt tokenUsed =>
    logEntry s i (quotaEntry userID username modelName quota createdAt tokenUsed)
  | .take i snapshot =>
    match s.caches[i]? with
    | some c =>
      if snapshot.Perm c.rows then
      { s with caches := s.caches.set i .empty, flushes := s.flushes++[{ pending := snapshot }] }
      else s
    | none => s
  | .lookup j =>
    match s.flushes[j]? with
    | some ⟨b::rest,none⟩ =>
      { s with flushes := s.flushes.set j ⟨b::rest,some (s.table.any fun d => d.bucket = b.bucket)⟩ }
    | _ => s
  | .write j =>
    match s.flushes[j]? with
    | some ⟨b::rest,some found⟩ =>
      { s with
        flushes := s.flushes.set j ⟨rest,none⟩
        table := if found then increaseQuotaData b s.table else s.table++[b] }
    | _ => s

def weight (k : ℤ × String × String × ℤ) (d : QuotaData) : Amounts := if d.bucket = k then d.amounts else 0

def total (k : ℤ × String × String × ℤ) (ds : List QuotaData) : Amounts := (ds.map (weight k)).sum

def buffered (k : ℤ × String × String × ℤ) (s : State) : Amounts := (s.caches.map fun c => total k c.rows).sum

def kept (k : ℤ × String × String × ℤ) (s : State) : Amounts :=
  total k s.table+buffered k s+(s.flushes.map fun f => total k f.pending).sum

/-- What an event logs to the bucket; `processes` is their number. -/
def Event.amounts (processes : ℕ) (k : ℤ × String × String × ℤ) : Event → Amounts
  | .log i userID username modelName quota createdAt tokenUsed =>
    if i < processes then weight k (quotaEntry userID username modelName quota createdAt tokenUsed) else 0
  | .take _ _ | .lookup _ | .write _ => 0

def logged (processes : ℕ) (k : ℤ × String × String × ℤ) (events : List Event) : Amounts :=
  (events.map (Event.amounts processes k)).sum

/-- A call finds under its cache key only a bucket of its own columns, and an update meets one row. -/
def Regular (s : State) : Event → Prop
  | .log i userID username modelName quota createdAt tokenUsed => ∀ c ∈ s.caches[i]?, ∀ d ∈ c.rows,
    d.cacheKey = (quotaEntry userID username modelName quota createdAt tokenUsed).cacheKey →
      d.bucket = (quotaEntry userID username modelName quota createdAt tokenUsed).bucket
  | .write j => ∀ f ∈ s.flushes[j]?, f.found = some true →
    ∀ b ∈ f.pending.head?, s.table.countP (fun d => d.bucket = b.bucket) = 1
  | _ => True

instance Regular.decidable (s : State) (e : Event) : Decidable (Regular s e) := by
  cases e <;> unfold Regular <;> infer_instance

@[simp] lemma total_nil : total k [] = 0 := rfl
@[simp] lemma total_cons : total k (d::ds) = weight k d+total k ds := rfl

lemma weight_add (h : d.bucket = b.bucket) : weight k (b.add d) = weight k d+weight k b := by
  have hb : (b.add d).bucket = b.bucket := h
  rw [weight,weight,weight,hb,h]
  split
  · rfl
  · simp

lemma total_increase : total k (increaseQuotaData b table) =
    total k table+table.countP (fun d => d.bucket = b.bucket)•weight k b := by
  induction table with
  | nil => simp [increaseQuotaData]
  | cons d table ih =>
    simp only [increaseQuotaData,map_cons,total_cons,countP_cons] at ih ⊢
    rw [ih]
    by_cases h : d.bucket = b.bucket
    · simp only [h,if_true,decide_true,weight_add h,succ_nsmul]
      abel
    · simp [h,add_assoc]

lemma total_log (h : ∀ d ∈ c.rows, d.cacheKey = entry.cacheKey → d.bucket = entry.bucket) :
    total k (logQuotaDataCache entry c).rows = total k c.rows+weight k entry :=
  total_upsert fun d hd hk => weight_add (h d hd hk)

lemma length_caches_step (s : State) (e : Event) : (step s e).caches.length = s.caches.length := by
  cases e with
  | log => simp only [step,logEntry]; split <;> simp
  | take =>
    simp only [step]
    split
    · split <;> simp
    · rfl
  | lookup | write => simp only [step]; split <;> rfl

lemma kept_step (k : ℤ × String × String × ℤ) (s : State) (e : Event) (hr : Regular s e) :
    kept k (step s e) = kept k s+e.amounts s.caches.length k := by
  unfold kept buffered
  cases e with
  | log i userID username modelName quota createdAt tokenUsed =>
    rw [step,logEntry,Event.amounts]
    split
    · next c hi =>
      obtain ⟨hlt,_⟩ := List.getElem?_eq_some_iff.mp hi
      rw [sum_map_set hi,total_log (hr c hi),if_pos hlt]
      abel
    · next hi => rw [if_neg (by simpa using hi),add_zero]
  | take i snapshot =>
    rw [step,Event.amounts,add_zero]
    split
    · next c hi =>
      split
      · next hp =>
        have ht : total k snapshot = total k c.rows := (hp.map _).sum_eq
        have he : total k (empty : Cache).rows = 0 := rfl
        rw [sum_map_set hi,he,map_append,sum_append,map_singleton,sum_singleton,ht]
        abel
      · rfl
    · rfl
  | lookup j =>
    rw [step,Event.amounts,add_zero]
    split
    · next b rest hj => rw [sum_map_set hj,sub_self,add_zero]
    · rfl
  | write j =>
    rw [step,Event.amounts,add_zero]
    split
    · next b rest found hj =>
      rw [sum_map_set hj,total_cons]
      cases found with
      | true =>
        rw [if_pos rfl,total_increase,hr _ hj rfl b rfl,one_nsmul]
        abel
      | false =>
        have happ : total k (s.table++[b]) = total k s.table+weight k b := by simp [total]
        rw [if_neg Bool.false_ne_true,happ]
        abel
    · rfl

def start (processes : ℕ) : State := { caches := replicate processes .empty }

theorem dashboard_exact (processes : ℕ) (events : List Event) (h : Along step Regular (start processes) events)
    (hq : ∀ f ∈ (run step (start processes) events).flushes, f.pending = []) (k : ℤ × String × String × ℤ) :
    total k (run step (start processes) events).table+buffered k (run step (start processes) events) =
      logged processes k events := by
  have hrun := run_total_labels (I := fun s => s.caches.length = processes)
    (fun s e hs _ => (length_caches_step s e).trans hs)
    (fun s e hs hr => hs ▸ kept_step k s e hr) length_replicate h
  have hz : ((run step (start processes) events).flushes.map fun f => total k f.pending).sum = 0 := by
    refine sum_eq_zero fun x hx => ?_
    obtain ⟨f,hf,rfl⟩ := mem_map.mp hx
    rw [hq f hf,total_nil]
  have hstart : kept k (start processes) = 0 := by simp [kept,start,buffered,empty]
  rwa [kept,hz,add_zero,hstart,zero_add] at hrun

def call (i : ℕ) : Event := .log i 1 "ann" "m" 5 3600 7

def row : QuotaData := quotaEntry 1 "ann" "m" 5 3600 7

def flush (i j : ℕ) : List Event := [.take i [row],.lookup j,.write j]

def inTurn : List Event := call 0::flush 0 0++call 1::flush 1 1

theorem dashboard_exact_inTurn : total row.bucket (run step (start 2) inTurn).table+
    buffered row.bucket (run step (start 2) inTurn) = logged 2 row.bucket inTurn :=
  dashboard_exact 2 inTurn (by decide +kernel) (by decide +kernel) row.bucket

/-- Two processes insert the bucket at once, and the next flush adds to both rows. -/
def overlap : List Event := [call 0,call 1,.take 0 [row],.take 1 [row],.lookup 0,.lookup 1,.write 0,.write 1,call 0]++flush 0 2

theorem overlap_counts_twice : total row.bucket (run step (start 2) overlap).table = (4,20,28) ∧
    logged 2 row.bucket overlap = (3,15,21) ∧ buffered row.bucket (run step (start 2) overlap) = 0 ∧
    ∀ f ∈ (run step (start 2) overlap).flushes, f.pending = [] := by
  decide +kernel

end LurusHub.UsageReplicas
