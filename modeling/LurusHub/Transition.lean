import Mathlib.Algebra.Group.Defs
import Mathlib.Data.List.Basic

/-! Runs of a deterministic labelled machine. The label carries every choice of the environment, so
an interleaving is a list of labels. `Along` speaks about the steps of a run, `Always` about the
states it visits. -/
namespace LurusHub.Transition

variable {S L : Type*}

def run (step : S → L → S) (s : S) (ls : List L) : S := ls.foldl step s

@[simp] lemma run_nil (step : S → L → S) (s : S) : run step s [] = s := rfl

@[simp] lemma run_cons (step : S → L → S) (s : S) (l : L) (ls : List L) :
    run step s (l::ls) = run step (step s l) ls := rfl

lemma run_append (step : S → L → S) (s : S) (ls ms : List L) :
    run step s (ls++ms) = run step (run step s ls) ms := by
  simp [run]

/-- Every step of the run starts from a state and carries a label that meet `G`. -/
def Along (step : S → L → S) (G : S → L → Prop) : S → List L → Prop
  | _, [] => True
  | s, l::ls => G s l ∧ Along step G (step s l) ls

/-- `I` holds in every state the run visits, the first and the last included. -/
def Always (step : S → L → S) (I : S → Prop) : S → List L → Prop
  | s, [] => I s
  | s, l::ls => I s ∧ Always step I (step s l) ls

instance Along.decidable (step : S → L → S) (G : S → L → Prop) [∀ s l, Decidable (G s l)] :
    ∀ s ls, Decidable (Along step G s ls)
  | _, [] => inferInstanceAs (Decidable True)
  | s, l::ls =>
    have := Along.decidable step G (step s l) ls
    inferInstanceAs (Decidable (G s l ∧ Along step G (step s l) ls))

instance Always.decidable (step : S → L → S) (I : S → Prop) [∀ s, Decidable (I s)] :
    ∀ s ls, Decidable (Always step I s ls)
  | s, [] => inferInstanceAs (Decidable (I s))
  | s, l::ls =>
    have := Always.decidable step I (step s l) ls
    inferInstanceAs (Decidable (I s ∧ Always step I (step s l) ls))

lemma along_append (step : S → L → S) (G : S → L → Prop) (s : S) (ls ms : List L) :
    Along step G s (ls++ms) ↔ Along step G s ls ∧ Along step G (run step s ls) ms := by
  induction ls generalizing s with
  | nil => simp [Along]
  | cons l ls ih => simp [Along,ih,and_assoc]

variable {step : S → L → S} {G : S → L → Prop} {ls : List L} {s : S} {I J : S → Prop}

lemma Along.and (hG : Along step G s ls)
    (hH : Along step H s ls) : Along step (fun s l => G s l ∧ H s l) s ls := by
  induction ls generalizing s with
  | nil => trivial
  | cons l ls ih => exact ⟨⟨hG.1,hH.1⟩,ih hG.2 hH.2⟩

def trace (step : S → L → S) : S → List L → List (S × L)
  | _,[] => []
  | s,l::ls => (s,l)::trace step (step s l) ls

lemma along_iff_trace : Along step G s ls ↔ ∀ p ∈ trace step s ls, G p.1 p.2 := by
  induction ls generalizing s with
  | nil => simp [Along,trace]
  | cons l ls ih => simp [Along,trace,ih]

lemma map_snd_trace (step : S → L → S) (s : S) (ls : List L) : (trace step s ls).map Prod.snd = ls := by
  induction ls generalizing s with
  | nil => rfl
  | cons l ls ih => simp [trace,ih]

lemma trace_invariant (hstep : ∀ s l, I s → I (step s l))
    (hs : I s) (ls : List L) : ∀ p ∈ trace step s ls, I p.1 := by
  induction ls generalizing s with
  | nil => simp [trace]
  | cons l ls ih =>
    exact List.forall_mem_cons.mpr ⟨hs,ih (hstep s l hs)⟩

lemma Always.last (h : Always step I s ls) : I (run step s ls) := by
  induction ls generalizing s with
  | nil => exact h
  | cons l ls ih => exact ih h.2

lemma always_of_along (hstep : ∀ s l, I s → G s l → I (step s l))
    (hs : I s) (hG : Along step G s ls) : Always step I s ls := by
  induction ls generalizing s with
  | nil => exact hs
  | cons l ls ih => exact ⟨hs,ih (hstep s l hs hG.1) hG.2⟩

lemma along_of_forall (h : ∀ l ∈ ls, ∀ s, G s l) (s : S) : Along step G s ls := by
  induction ls generalizing s with
  | nil => trivial
  | cons l ls ih => exact ⟨h l List.mem_cons_self s,ih (fun k hk => h k (List.mem_cons_of_mem l hk)) _⟩

lemma along_true (s : S) (ls : List L) : Along step (fun _ _ => True) s ls :=
  along_of_forall (fun _ _ _ => trivial) s

theorem run_invariant (hstep : ∀ s l, I s → G s l → I (step s l))
    (hs : I s) (hG : Along step G s ls) : I (run step s ls) :=
  (always_of_along hstep hs hG).last

lemma run_stable (hstep : ∀ s l, I s → I (step s l)) (ls : List L) (hs : I s) : I (run step s ls) :=
  run_invariant (fun s l h _ => hstep s l h) hs (along_true s ls)

theorem run_total {M : Type*} [AddMonoid M] {Φ : S → M} {d : S → L → M}
    (hkeep : ∀ s l, I s → G s l → I (step s l)) (hadd : ∀ s l, I s → G s l → Φ (step s l) = Φ s+d s l)
    (hs : I s) (hG : Along step G s ls) : Φ (run step s ls) = Φ s+((trace step s ls).map fun p => d p.1 p.2).sum := by
  induction ls generalizing s with
  | nil => simp [trace]
  | cons l ls ih =>
    rw [run_cons,ih (hkeep s l hs hG.1) hG.2,hadd s l hs hG.1,add_assoc]
    rfl

lemma run_total_labels {M : Type*} [AddMonoid M] {Φ : S → M} {d : L → M}
    (hkeep : ∀ s l, I s → G s l → I (step s l)) (hadd : ∀ s l, I s → G s l → Φ (step s l) = Φ s+d l)
    (hs : I s) (hG : Along step G s ls) : Φ (run step s ls) = Φ s+(ls.map d).sum := by
  have hlabels := congrArg (List.map d) (map_snd_trace step s ls)
  rw [List.map_map] at hlabels
  rw [← hlabels]
  exact run_total (d := fun _ l => d l) hkeep hadd hs hG

theorem done_of_measure {D : S → Prop} {m : S → ℕ} (hdone : ∀ s l, D s → D (step s l))
    (hstep : ∀ s l, I s → D (step s l) ∨ I (step s l) ∧ m (step s l) < m s) (hpos : ∀ s, I s → 0 < m s)
    (hs : I s) (hlen : m s ≤ ls.length) : D (run step s ls) := by
  induction ls generalizing s with
  | nil => exact absurd (hpos s hs) (Nat.not_lt.mpr hlen)
  | cons l ls ih =>
    rcases hstep s l hs with hD | ⟨hI,hlt⟩
    · exact run_stable hdone ls hD
    · rw [List.length_cons] at hlen
      exact ih hI (by omega)

theorem along_of_not_spoilt {Spoilt : S → Prop}
    (hstep : ∀ s l, I s → G s l → I (step s l)) (hspo : ∀ s l, I s → W s l → ¬G s l → Spoilt (step s l))
    (hsta : ∀ s l, Spoilt s → Spoilt (step s l)) (hs : I s) (hW : Along step W s ls)
    (h : ¬Spoilt (run step s ls)) : Along step G s ls := by
  induction ls generalizing s with
  | nil => trivial
  | cons l ls ih =>
    by_cases hG : G s l
    · exact ⟨hG,ih (hstep s l hs hG) hW.2 h⟩
    · exact absurd (run_stable hsta ls (hspo s l hs hW.1 hG)) h

lemma Always.here (h : Always step I s ls) : I s := by
  cases ls with
  | nil => exact h
  | cons l ls => exact h.1

lemma Always.of_append (h : Always step I s (ls++ms)) : Always step I (run step s ls) ms := by
  induction ls generalizing s with
  | nil => exact h
  | cons l ls ih => exact ih h.2

theorem always_of_step (hstep : ∀ s l, I s → J s → I (step s l))
    (hs : I s) (hJ : Always step J s ls) : Always step I s ls := by
  induction ls generalizing s with
  | nil => exact hs
  | cons l ls ih => exact ⟨hs,ih (hstep s l hs hJ.1) hJ.2⟩

lemma Always.mono (hIJ : ∀ s, I s → J s) (h : Always step I s ls) : Always step J s ls := by
  induction ls generalizing s with
  | nil => exact hIJ s h
  | cons l ls ih => exact ⟨hIJ s h.1,ih h.2⟩

lemma Always.congr {P Q : S → Prop} (hI : Always step I s ls) (hJ : Always step J s ls)
    (h : ∀ s, I s → J s → (P s ↔ Q s)) : Always step P s ls ↔ Always step Q s ls := by
  induction ls generalizing s with
  | nil => exact h s hI hJ
  | cons l ls ih => exact and_congr (h s hI.1 hJ.1) (ih hI.2 hJ.2)

theorem always_iff_along_under
    (hkeep : ∀ s l, I s → H s l → G s l → I (step s l)) (hgood : ∀ s, I s → P s)
    (hbad : ∀ s l, I s → H s l → ¬G s l → ¬P (step s l)) (hs : I s) (hH : Along step H s ls) :
    Always step P s ls ↔ Along step G s ls := by
  induction ls generalizing s with
  | nil => exact ⟨fun _ => trivial,fun _ => hgood s hs⟩
  | cons l ls ih =>
    constructor
    · rintro ⟨_,htail⟩
      have hG : G s l := not_not.mp fun hno => hbad s l hs hH.1 hno htail.here
      exact ⟨hG,(ih (hkeep s l hs hH.1 hG) hH.2).mp htail⟩
    · rintro ⟨hG,htail⟩
      exact ⟨hgood s hs,(ih (hkeep s l hs hH.1 hG) hH.2).mpr htail⟩

lemma always_iff_along_of_invariant (hkeep : ∀ s l, I s → G s l → I (step s l)) (hgood : ∀ s, I s → P s)
    (hbad : ∀ s l, I s → ¬G s l → ¬P (step s l)) (ls : List L) (hs : I s) :
    Always step P s ls ↔ Along step G s ls :=
  always_iff_along_under (fun s l hI _ => hkeep s l hI) hgood (fun s l hI _ => hbad s l hI) hs (along_true s ls)

theorem always_iff_along (hJ : ∀ s l, J s → J (step s l))
    (hstep : ∀ s l, J s → I s → (I (step s l) ↔ G s l)) (ls : List L) (hj : J s) (hs : I s) :
    Always step I s ls ↔ Along step G s ls :=
  always_iff_along_of_invariant (I := fun s => J s ∧ I s)
    (fun s l h hG => ⟨hJ s l h.1,(hstep s l h.1 h.2).mpr hG⟩) (fun _ h => h.2)
    (fun s l h hno hI => hno ((hstep s l h.1 h.2).mp hI)) ls ⟨hj,hs⟩

end LurusHub.Transition
