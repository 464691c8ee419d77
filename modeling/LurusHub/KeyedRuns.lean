import LurusHub.Transition
import Mathlib.Order.Lattice

/-! Labels that carry a key or a time. With a machine for every key, a run does to one of them what
the labels of its key do. With times in order an invariant may speak of the time reached. -/
namespace LurusHub.Transition
open List

variable {S L : Type*}

section Keys
variable {K : Type*} [DecidableEq K]

def stepAt (key : L → K) (step : S → L → S) (machines : K → S) (l : L) : K → S :=
  Function.update machines (key l) (step (machines (key l)) l)

def labelsOf (key : L → K) (k : K) (ls : List L) : List L := ls.filter fun l => key l = k

lemma mem_labelsOf {k : K} : l ∈ labelsOf key k ls ↔ l ∈ ls ∧ key l = k := by
  simp [labelsOf]

lemma run_stepAt (key : L → K) (step : S → L → S) (machines : K → S) (ls : List L) (k : K) :
    run (stepAt key step) machines ls k = run step (machines k) (labelsOf key k ls) := by
  induction ls generalizing machines with
  | nil => rfl
  | cons l ls ih =>
    rw [run_cons,ih]
    by_cases hk : key l = k
    · subst hk
      rw [stepAt,Function.update_self,labelsOf,labelsOf,filter_cons_of_pos (by simp),run_cons]
    · rw [stepAt,Function.update_of_ne (Ne.symm hk),labelsOf,labelsOf,filter_cons_of_neg (by simpa using hk)]

end Keys

section Times
variable {T : Type*} [Preorder T] {time : L → T} {step : S → L → S} {I : S → T → Prop}

theorem run_timed {G : L → Prop} (hwait : ∀ s t t', I s t → t ≤ t' → I s t')
    (hstep : ∀ s l, I s (time l) → G l → I (step s l) (time l)) (htim : (ls.map time).Pairwise (· ≤ ·))
    (hG : ∀ l ∈ ls, G l) (ht : ∀ l ∈ ls, time l ≤ t) (hs : ∀ t, I s t) : I (run step s ls) t := by
  suffices h : ∀ s, (∀ l ∈ ls, I s (time l)) → I s t → I (run step s ls) t from h s (fun l _ => hs (time l)) (hs t)
  induction ls with
  | nil => exact fun _ _ h => h
  | cons l ls ih =>
    intro s hs _
    obtain ⟨hl,hls⟩ := pairwise_cons.mp htim
    have hnext := hstep s l (hs l mem_cons_self) (hG l mem_cons_self)
    refine ih hls (fun m hm => hG m (mem_cons_of_mem _ hm)) (fun m hm => ht m (mem_cons_of_mem _ hm)) _
      (fun m hm => ?_) ?_
    · exact hwait _ _ _ hnext (hl _ (mem_map_of_mem hm))
    · exact hwait _ _ _ hnext (ht l mem_cons_self)

theorem along_iff_timed (hwait : ∀ s t t', I s t → t ≤ t' → I s t')
    (hiff : ∀ s l, I s (time l) → H s l → (G s l ↔ C s l))
    (hstep : ∀ s l, I s (time l) → H s l → G s l → I (step s l) (time l))
    (htim : (ls.map time).Pairwise (· ≤ ·)) (hs : ∀ l ∈ ls, I s (time l)) (hH : Along step H s ls) :
    Along step G s ls ↔ Along step C s ls := by
  induction ls generalizing s with
  | nil => exact Iff.rfl
  | cons l ls ih =>
    obtain ⟨hl,hls⟩ := pairwise_cons.mp htim
    have hhere := hs l mem_cons_self
    refine (and_congr_right fun hG => ih hls (fun m hm => ?_) hH.2).trans (and_congr_left' (hiff s l hhere hH.1))
    exact hwait _ _ _ (hstep s l hhere hH.1 hG) (hl _ (mem_map_of_mem hm))

end Times

lemma exists_after {T : Type*} [LinearOrder T] [Nonempty T] (time : L → T) (ls : List L) : ∃ t, ∀ l ∈ ls, time l ≤ t := by
  induction ls with
  | nil => exact ⟨Classical.arbitrary T,nofun⟩
  | cons l ls ih =>
    obtain ⟨t,ht⟩ := ih
    exact ⟨max (time l) t,forall_mem_cons.mpr ⟨le_max_left _ _,fun m hm => (ht m hm).trans (le_max_right _ _)⟩⟩

end LurusHub.Transition
