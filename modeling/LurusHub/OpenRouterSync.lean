import LurusHub.NameLists
import LurusHub.PlanGrant
import Mathlib.Data.List.Dedup
import Mathlib.Data.List.Sort
import Mathlib.Data.String.Basic

/-! The OpenRouter sync of a channel. A run replaces the managed set by its new choice and keeps what
is on the channel outside the old one, so a model of the administrator that was chosen once is managed. -/
namespace LurusHub.OpenRouterSync
open NameLists Transition List
open PlanGrant (isSpace)

abbrev Text := List Char

structure Model where
  id : Text
  created : ℤ := 0
  (inputModalities outputModalities : List String)

structure Job where
  categories : List String
  topN : ℤ := 0

structure Channel where
  models : Text
  managedModelsBySync : List Text := []
  lastSyncFetchCount : ℤ := 0

structure Run where
  freeAll : List Model
  fetchedTotal : ℤ
  usage : Text → ℤ := fun _ => 0
  allJobs : List Job
  blockedRows : List Text := []
  force : Bool := false
  commits : Bool := true

def setFromSlice (xs : List Text) : List Text := nonempty isSpace xs

-- the commas that `GetModels` cuts off the ends only make empty parts, which the set leaves out
def Channel.current (ch : Channel) : List Text := names isSpace ',' ch.models

def Channel.managed (ch : Channel) : List Text := setFromSlice ch.managedModelsBySync

def circuitBreakerThreshold (baseline : ℤ) : ℤ := if baseline.tdiv 2 > 10 then baseline.tdiv 2 else 10

def onlyText (list : List String) : Bool := list ≠ [] && list.all (· = "text")

def classifyOne (input output : List String) : List String :=
  (if onlyText input && output.contains "text" then ["llm_reasoning"] else [])++
  (if input.contains "image" && onlyText output then ["vision"] else [])++
  (if output.contains "image" then ["image_gen"] else [])++
  (if input.contains "audio" && onlyText output then ["asr"] else [])++
  (if output.contains "audio" then ["tts"] else [])

def matchesAny (input output wanted : List String) : Bool := (classifyOne input output).any wanted.contains

def ranksBefore (usage : Text → ℤ) (a b : Model) : Bool :=
  if usage a.id ≠ usage b.id then usage a.id > usage b.id
  else if a.created ≠ b.created then a.created > b.created else a.id ≤ b.id

def rankAndTrim (candidates : List Model) (usage : Text → ℤ) (topN : ℤ) : List Model :=
  let out := candidates.insertionSort fun a b => ranksBefore usage a b
  if 0 < topN then out.take topN.toNat else out

def blocked (ch : Channel) (r : Run) : List Text := r.blockedRows.filter (· ∈ ch.current++ch.managed)

def chosen (ch : Channel) (r : Run) (j : Job) : List Text :=
  (rankAndTrim (r.freeAll.filter fun m =>
    m.id ∉ blocked ch r && matchesAny m.inputModalities m.outputModalities j.categories) r.usage j.topN).map (·.id)

def managedNew (ch : Channel) (r : Run) : List Text :=
  r.allJobs.flatMap (chosen ch r)++(blocked ch r).filter fun id => id ∈ r.freeAll.map (·.id) && id ∈ ch.managed

def sortedSlice (set : List Text) : List Text := set.dedup.insertionSort (· ≤ ·)

def runs (ch : Channel) (r : Run) : Bool :=
  r.commits && (r.force || circuitBreakerThreshold ch.lastSyncFetchCount ≤ r.fetchedTotal)

def applyChannel (ch : Channel) (r : Run) : Channel :=
  if runs ch r then
    { models := join ',' (sortedSlice (ch.current.filter (· ∉ ch.managed)++managedNew ch r))
      managedModelsBySync := sortedSlice (managedNew ch r)
      lastSyncFetchCount := r.fetchedTotal }
  else ch

/-- A run that goes through chooses the model again if it is managed. -/
def Retains (x : Text) (ch : Channel) (r : Run) : Prop :=
  runs ch r → x ∈ ch.managed → ∃ y ∈ managedNew ch r, x ∈ names isSpace ',' y

instance Retains.decidable (x : Text) (ch : Channel) (r : Run) : Decidable (Retains x ch r) := by
  unfold Retains
  infer_instance

lemma mem_sortedSlice : x ∈ sortedSlice xs ↔ x ∈ xs := by
  simp [sortedSlice]

lemma mem_current_applyChannel (h : runs ch r) : x ∈ (applyChannel ch r).current ↔
    x ∈ ch.current ∧ x ∉ ch.managed ∨ ∃ y ∈ managedNew ch r, x ∈ names isSpace ',' y := by
  have hc : (applyChannel ch r).current =
      (sortedSlice (ch.current.filter (· ∉ ch.managed)++managedNew ch r)).flatMap (names isSpace ',') := by
    rw [applyChannel,if_pos h]
    exact names_join _
  rw [hc]
  simp only [mem_flatMap,mem_sortedSlice,mem_append,mem_filter,decide_eq_true_eq,or_and_right,exists_or]
  refine or_congr ⟨?_,fun hx => ⟨x,hx,by simp [(clean_of_mem hx.1).names]⟩⟩ Iff.rfl
  rintro ⟨y,hy,hx⟩
  rw [(clean_of_mem hy.1).names,mem_singleton] at hx
  exact hx ▸ hy

theorem model_stays_iff (x : Text) (ch : Channel) (rs : List Run) (h : x ∈ ch.current) :
    Always applyChannel (fun c => x ∈ c.current) ch rs ↔ Along applyChannel (Retains x) ch rs := by
  refine always_iff_along (J := fun _ => True) (fun _ _ _ => trivial) (fun c r _ hc => ?_) rs trivial h
  by_cases hr : runs c r
  · rw [mem_current_applyChannel hr]
    simp only [Retains,hr,hc]
    tauto
  · simp [applyChannel,Retains,hr,hc]

def two : Channel := { models := "a,b".toList }

def sync (ids : List String) : Run where
  freeAll := ids.map fun id => ⟨id.toList,0,["text"],["text"]⟩
  fetchedTotal := 10
  allJobs := [⟨["llm_reasoning"],0⟩]

theorem model_stays_twice : Always applyChannel (fun c => "a".toList ∈ c.current) two [sync ["a"],sync ["a"]] :=
  (model_stays_iff "a".toList two [sync ["a"],sync ["a"]] (by decide +kernel)).mpr (by decide +kernel)

theorem adopted_model_removed : "a".toList ∈ two.current ∧ "a".toList ∉ two.managed ∧
    "a".toList ∉ (run applyChannel two [sync ["a"],sync ["c"]]).current := by
  decide +kernel

end LurusHub.OpenRouterSync
