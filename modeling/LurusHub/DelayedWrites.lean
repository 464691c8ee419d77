import Mathlib.Data.List.Basic

/-! A key-value store written by background jobs: lists of commands that run in order, between which
any other job may run. A job that has run to its end is an empty one. -/
namespace LurusHub.DelayedWrites
open List

inductive Cmd (K V : Type*) where
  | set (k : K) (v : V)
  | del (k : K)
  deriving DecidableEq

structure Job (T K V : Type*) where
  tag : T
  cmds : List (Cmd K V)
  deriving DecidableEq

structure Store (T K V : Type*) where
  entry : K → Option V
  jobs : List (Job T K V)

variable {T K V : Type*}

def Cmd.apply [DecidableEq K] (entry : K → Option V) : Cmd K V → K → Option V
  | .set k v => Function.update entry k (some v)
  | .del k => Function.update entry k none

def Cmd.written [DecidableEq K] (k : K) : Cmd K V → Option V
  | .set k' v => if k' = k then some v else none
  | .del _ => none

namespace Store

def next? (s : Store T K V) (i : ℕ) : Option (Cmd K V) := s.jobs[i]?.bind fun j => j.cmds.head?

def spawn (s : Store T K V) (j : Job T K V) : Store T K V := { s with jobs := s.jobs++[j] }

def Awaits (s : Store T K V) (c : Cmd K V) : Prop := ∃ j ∈ s.jobs, c ∈ j.cmds

instance [DecidableEq K] [DecidableEq V] (s : Store T K V) (c : Cmd K V) : Decidable (s.Awaits c) := by
  delta Awaits
  infer_instance

def Finished (s : Store T K V) (tag : T) : Prop := ∀ j ∈ s.jobs, j.tag = tag → j.cmds = []

instance [DecidableEq T] (s : Store T K V) (tag : T) : Decidable (s.Finished tag) := by
  delta Finished
  have (cmds : List (Cmd K V)) : Decidable (cmds = []) := decidable_of_iff (cmds.isEmpty = true) List.isEmpty_iff
  infer_instance

variable {s : Store T K V} {c : Cmd K V} {i : ℕ}

lemma next?_eq_some : s.next? i = some c ↔ ∃ j, s.jobs[i]? = some j ∧ ∃ cs, j.cmds = c::cs := by
  simp [next?,Option.bind_eq_some_iff,head?_eq_some_iff]

lemma Awaits.spawn (h : s.Awaits c) (j : Job T K V) : (s.spawn j).Awaits c := by
  obtain ⟨q,hq,hc⟩ := h
  exact ⟨q,mem_append_left _ hq,hc⟩

/-- What `k` holds meets `Q`, or a delete of `k` is still to come. -/
def Clean (s : Store T K V) (k : K) (Q : V → Prop) : Prop := s.Awaits (.del k) ∨ ∀ v ∈ s.entry k, Q v

lemma Clean.spawn (hs : s.Clean k Q) (j : Job T K V) : (s.spawn j).Clean k Q :=
  hs.imp (fun h => h.spawn j) id

variable [DecidableEq K]

def exec (s : Store T K V) (i : ℕ) : Store T K V :=
  match s.next? i with
  | none => s
  | some c => ⟨c.apply s.entry,s.jobs.modify i fun j => { j with cmds := j.cmds.tail }⟩

def expire (s : Store T K V) (k : K) : Store T K V := { s with entry := Function.update s.entry k none }

@[simp] lemma exec_of_none (h : s.next? i = none) : s.exec i = s := by
  simp [exec,h]

lemma entry_exec (h : s.next? i = some c) : (s.exec i).entry = c.apply s.entry := by
  simp [exec,h]

lemma jobs_exec (h : s.next? i = some c) :
    (s.exec i).jobs = s.jobs.modify i fun j => { j with cmds := j.cmds.tail } := by
  simp [exec,h]

lemma mem_jobs_exec (h : j ∈ (s.exec i).jobs) : ∃ q ∈ s.jobs, q.tag = j.tag ∧ j.cmds ⊆ q.cmds := by
  cases hn : s.next? i with
  | none =>
    rw [exec_of_none hn] at h
    exact ⟨j,h,rfl,List.Subset.refl _⟩
  | some c =>
    rw [jobs_exec hn] at h
    obtain ⟨n,hj⟩ := mem_iff_getElem?.mp h
    rw [getElem?_modify] at hj
    obtain ⟨q,hq,hqj⟩ := Option.map_eq_some_iff.mp hj
    refine ⟨q,mem_of_getElem? hq,?_⟩
    by_cases hi : i = n
    · simp only [hi] at hqj
      subst hqj
      exact ⟨rfl,fun _ => mem_of_mem_tail⟩
    · simp only [hi] at hqj
      subst hqj
      exact ⟨rfl,List.Subset.refl _⟩

lemma awaits_exec (h : s.Awaits c) (hn : s.next? i ≠ some c) : (s.exec i).Awaits c := by
  cases hd : s.next? i with
  | none => rwa [exec_of_none hd]
  | some d =>
    obtain ⟨j,hj,hc⟩ := h
    obtain ⟨n,hjn⟩ := mem_iff_getElem?.mp hj
    rw [Awaits,jobs_exec hd]
    by_cases hi : i = n
    · subst hi
      obtain ⟨q,hq,cs,hcs⟩ := next?_eq_some.mp hd
      obtain rfl : q = j := Option.some.inj (hq.symm.trans hjn)
      rw [hcs] at hc
      have hne : c ≠ d := fun hcd => hn (hcd ▸ hd)
      have hmem : c ∈ cs := (mem_cons.mp hc).resolve_left hne
      refine ⟨{ q with cmds := cs },mem_of_getElem? (i:=i) ?_,hmem⟩
      simp [hjn,hcs]
    · refine ⟨j,mem_of_getElem? (i:=n) ?_,hc⟩
      simp [hi,hjn]

theorem Clean.exec (hs : s.Clean k Q)
    (hset : ∀ v ∈ (s.next? i).bind (Cmd.written k), s.Awaits (.del k) ∨ Q v) : (s.exec i).Clean k Q := by
  cases hn : s.next? i with
  | none => rwa [exec_of_none hn]
  | some c =>
    cases c with
    | del k' =>
      by_cases hk : k' = k
      · right
        simp [entry_exec hn,Cmd.apply,hk]
      · refine hs.imp (fun h => awaits_exec h ?_) fun h => ?_
        · simpa [hn] using hk
        · simpa [entry_exec hn,Cmd.apply,Function.update_of_ne (Ne.symm hk)] using h
    | set k' v =>
      have hkeep (h : s.Awaits (.del k)) : (s.exec i).Awaits (.del k) := awaits_exec h (by simp [hn])
      by_cases hk : k' = k
      · subst hk
        refine (hset v (by simp [hn,Cmd.written])).imp hkeep fun hv => ?_
        simpa [entry_exec hn,Cmd.apply] using hv
      · refine hs.imp hkeep fun h => ?_
        simpa [entry_exec hn,Cmd.apply,Function.update_of_ne (Ne.symm hk)] using h

lemma Clean.expire (hs : s.Clean k Q) : (s.expire k').Clean k Q := by
  refine hs.imp id fun h v hv => ?_
  by_cases hk : k = k'
  · simp [Store.expire,hk] at hv
  · exact h v (by simpa [Store.expire,Function.update_of_ne hk] using hv)

end Store
end LurusHub.DelayedWrites
