import LurusHub.KeyedTotals
import LurusHub.Transition
import Mathlib.Tactic.Abel

/-! Batched quota updates. `addNewRecord` adds to the store of its type; a pass takes the stores one after
another and writes every amount to the database. A write that fails is only logged. -/
namespace LurusHub.BatchUpdates
open KeyedTable Transition

local instance sums : AddCommGroup Int64 := int64Group

inductive BatchUpdateType
  | userQuota | tokenQuota | usedQuota | channelUsedQuota | requestCount
  deriving DecidableEq

def batchUpdateTypes : List BatchUpdateType := [.userQuota,.tokenQuota,.usedQuota,.channelUsedQuota,.requestCount]

abbrev Store := KeyedTable (ℤ × Int64) ℤ Prod.fst

inductive Pass
  | check (todo : List BatchUpdateType)
  | swap (todo : List BatchUpdateType)
  | write (type_ : BatchUpdateType) (store : Store) (todo : List BatchUpdateType)

def Pass.over : Pass → Bool
  | .swap todo => todo.isEmpty
  | .check _ | .write _ _ _ => false

abbrev Counter := BatchUpdateType × ℤ

structure State where
  batchUpdateStores : BatchUpdateType → Store := fun _ => .empty
  passes : List Pass := []
  database : Counter → Int64 := fun _ => 0

inductive Event
  | addNewRecord (type_ : BatchUpdateType) (id : ℤ) (value : Int64)
  | batchUpdate
  | advance (i : ℕ)
  | write (i : ℕ) (id : ℤ) (fails : Bool)

def addNewRecord (store : Store) (id : ℤ) (value : Int64) : Store :=
  store.upsert (id,value) (fun r => (r.1,r.2+value)) fun _ => rfl

def step (s : State) : Event → State
  | .addNewRecord type_ id value =>
    { s with
      batchUpdateStores := Function.update s.batchUpdateStores type_ (addNewRecord (s.batchUpdateStores type_) id value) }
  | .batchUpdate => { s with passes := s.passes++[.check batchUpdateTypes] }
  | .advance i =>
    match s.passes[i]? with
    | some (.check []) => { s with passes := s.passes.set i (.swap []) }
    | some (.check (type_::todo)) =>
      let p := if (s.batchUpdateStores type_).rows = [] then Pass.check todo else .swap batchUpdateTypes
      { s with passes := s.passes.set i p }
    | some (.swap (type_::todo)) =>
      { s with
        batchUpdateStores := Function.update s.batchUpdateStores type_ .empty
        passes := s.passes.set i (.write type_ (s.batchUpdateStores type_) todo) }
    | some (.write _ store todo) => if store.rows = [] then { s with passes := s.passes.set i (.swap todo) } else s
    | some (.swap []) | none => s
  | .write i id fails =>
    match s.passes[i]? with
    | some (.write type_ store todo) =>
      match store.get? id with
      | some (_,value) =>
        { s with
          passes := s.passes.set i (.write type_ (store.delete id) todo)
          database := if fails then s.database else fun c => s.database c+if c = (type_,id) then value else 0 }
      | none => s
    | some (.check _) | some (.swap _) | none => s

def amount (store : Store) (id : ℤ) : Int64 := store.total fun r => if r.1 = id then r.2 else 0

def pending (s : State) (c : Counter) : Int64 := amount (s.batchUpdateStores c.1) c.2

def held (c : Counter) : Pass → Int64
  | .write type_ store _ => if c.1 = type_ then amount store c.2 else 0
  | .check _ | .swap _ => 0

/-- What is in the database, in the store and taken by the passes. -/
def kept (c : Counter) (s : State) : Int64 := s.database c+pending s c+(s.passes.map (held c)).sum

def Event.enqueued (c : Counter) : Event → Int64
  | .addNewRecord type_ id value => if c = (type_,id) then value else 0
  | .batchUpdate | .advance _ | .write _ _ _ => 0

/-- The amount of a write that fails. -/
def lost (c : Counter) (s : State) : Event → Int64
  | .write i id true =>
    match s.passes[i]? with
    | some (.write type_ store _) => if c = (type_,id) then amount store id else 0
    | some (.check _) | some (.swap _) | none => 0
  | .addNewRecord _ _ _ | .batchUpdate | .advance _ | .write _ _ false => 0

def enqueued (c : Counter) (events : List Event) : Int64 := (events.map (Event.enqueued c)).sum

def dropped (c : Counter) (events : List Event) : Int64 := ((trace step {} events).map fun p => lost c p.1 p.2).sum

lemma pending_addNewRecord (id : ℤ) (c : Counter) : pending (step s (.addNewRecord type_ id value)) c =
    pending s c+if c = (type_,id) then value else 0 := by
  obtain ⟨t,k⟩ := c
  by_cases ht : t = type_
  · subst ht
    simp only [pending,step,Function.update_self,Prod.mk.injEq,true_and,eq_comm (a := k)]
    refine total_upsert fun q _ hq => ?_
    by_cases hk : id = k <;> simp_all
  · simp [pending,step,ht]

lemma held_delete (h : store.get? j = some (k,value)) (c : Counter) :
    held c (.write type_ (store.delete j) todo) = held c (.write type_ store todo)-if c = (type_,j)
    then value else 0 := by
  obtain ⟨t,i⟩ := c
  obtain rfl := key_of_get? h
  by_cases ht : t = type_
  · simp only [held,ht,Prod.mk.injEq,true_and,eq_comm (a := i)]
    exact total_delete h _
  · simp [held,ht]

lemma kept_set_pass {s s' : State} {p p' : Pass} {c : Counter} {i : ℕ} {d : Int64} (hp : s.passes[i]? = some p)
    (hpas : s'.passes = s.passes.set i p')
    (hmov : s'.database c+pending s' c+held c p' = s.database c+pending s c+held c p+d) : kept c s' = kept c s+d := by
  rw [kept,hpas,sum_map_set hp,eq_sub_of_add_eq hmov,kept]
  abel

lemma kept_advance (c : Counter) (s : State) (i : ℕ) : kept c (step s (.advance i)) = kept c s+0 := by
  rw [step]
  split
  · next hp => exact kept_set_pass hp rfl (add_zero _).symm
  · next hp =>
    refine kept_set_pass hp rfl ?_
    split <;> exact (add_zero _).symm
  · next type_ todo hp =>
    refine kept_set_pass hp rfl ?_
    by_cases hc : c.1 = type_
    · simp [pending,held,hc,amount,total,empty]
    · simp [pending,held,hc]
  · next store todo hp =>
    split
    · next hnil => exact kept_set_pass hp rfl (by simp [held,amount,total,hnil]; rfl)
    · exact (add_zero _).symm
  all_goals exact (add_zero _).symm

lemma kept_write (c : Counter) (s : State) (i : ℕ) (id : ℤ) (fails : Bool) :
    kept c (step s (.write i id fails)) = kept c s+-lost c s (.write i id fails) := by
  rw [step]
  split
  · next type_ store todo hp =>
    split
    · next k value hget =>
      refine kept_set_pass hp rfl ?_
      have hamount : amount store id = value := total_key hget Prod.snd
      rw [held_delete hget]
      cases fails
      · simp [lost,pending]
        abel
      · simp [lost,pending,hp,hamount]
        abel
    · next hget =>
      have hamount : amount store id = 0 := total_eq_zero fun r hr => if_neg (get?_eq_none.mp hget r hr)
      cases fails <;> simp [lost,hp,hamount]
  all_goals
    next hp => cases fails <;> simp [lost,hp]

lemma kept_step (c : Counter) (s : State) (e : Event) : kept c (step s e) = kept c s+(e.enqueued c+-lost c s e) := by
  cases e with
  | addNewRecord type_ id value =>
    rw [kept,pending_addNewRecord]
    simp only [step,kept,Event.enqueued,lost,neg_zero]
    abel
  | batchUpdate => simp [kept,step,held,pending,Event.enqueued,lost]
  | advance i => simpa [Event.enqueued,lost] using kept_advance c s i
  | write i id fails => simpa [Event.enqueued] using kept_write c s i id fails

lemma kept_run (c : Counter) (events : List Event) :
    kept c (run step {} events) = enqueued c events+-dropped c events := by
  have hall : Along step (fun _ _ => True) {} events := along_of_forall (fun _ _ _ => trivial) _
  refine (run_total (I := fun _ => True) (fun _ _ _ _ => trivial)
    (fun s e _ _ => kept_step c s e) trivial hall).trans ?_
  have hlabels := congrArg (List.map (Event.enqueued c)) (map_snd_trace step {} events)
  rw [List.sum_map_add,enqueued,← hlabels,List.map_map,dropped,List.sum_neg,List.map_map]
  exact zero_add _

theorem batched_conserved_iff (events : List Event) (c : Counter)
    (hquiet : ∀ p ∈ (run step {} events).passes, p.over) :
    (run step {} events).database c+pending (run step {} events) c = enqueued c events ↔ dropped c events = 0 := by
  have hheld : ((run step {} events).passes.map (held c)).sum = 0 := by
    refine List.sum_eq_zero fun x hx => ?_
    obtain ⟨p,hp,rfl⟩ := List.mem_map.mp hx
    cases p with
    | check todo | swap todo => rfl
    | write type_ store todo => cases hquiet _ hp
  have hrun := kept_run c events
  rw [kept,hheld,add_zero] at hrun
  rw [hrun,add_eq_left,neg_eq_zero]

/-- The pass of one amount of user 1; its only write fails or not. -/
def oneAmount (fails : Bool) : List Event :=
  [.addNewRecord .userQuota 1 100,.batchUpdate,.advance 0,.advance 0,.write 0 1 fails]++List.replicate 9 (.advance 0)

theorem batched_conserved_once : (run step {} (oneAmount false)).database (.userQuota,1)+
    pending (run step {} (oneAmount false)) (.userQuota,1) = enqueued (.userQuota,1) (oneAmount false) :=
  (batched_conserved_iff (oneAmount false) (.userQuota,1) (by decide +kernel)).mpr (by decide +kernel)

theorem failed_write_drops : (∀ p ∈ (run step {} (oneAmount true)).passes, p.over) ∧
    (run step {} (oneAmount true)).database (.userQuota,1)+pending (run step {} (oneAmount true)) (.userQuota,1) ≠
      enqueued (.userQuota,1) (oneAmount true) := by
  decide +kernel

end LurusHub.BatchUpdates
