import Mathlib.Algebra.Order.BigOperators.Group.List
import Mathlib.Tactic.Linarith
import Mathlib.Tactic.Ring

/-! Spending from an allowance that grows at a constant rate up to a capacity. Over no stretch of
time is more spent than the capacity and the growth, and since the allowance was last full all of it
is accounted for. Logs are newest first. -/
namespace LurusHub.MeteredSpending
open List

variable {R : Type*} [CommRing R] [LinearOrder R] [IsStrictOrderedRing R]

def spent (s e : R) (log : List (R × R)) : R := ((log.filter fun p => s ≤ p.1 ∧ p.1 ≤ e).map Prod.snd).sum

omit [IsStrictOrderedRing R] in
@[simp] lemma spent_nil (e : R) : spent s e [] = 0 := rfl

omit [IsStrictOrderedRing R] in
lemma spent_cons (log : List (R × R)) :
    spent s e ((t,x)::log) = (if s ≤ t ∧ t ≤ e then x else 0)+spent s e log := by
  unfold spent
  rw [filter_cons]
  by_cases h : s ≤ t ∧ t ≤ e
  · simp [h]
  · rw [if_neg (by simpa using h),if_neg h,zero_add]

structure Metered (capacity rate : R) (log : List (R × R)) (t left : R) : Prop where
  past : ∀ p ∈ log, p.1 ≤ t
  nonneg : ∀ p ∈ log, 0 ≤ p.2
  left_nonneg : 0 ≤ left
  left_le : left ≤ capacity
  upper : ∀ s ≤ t, spent s t log+left ≤ capacity+rate*(t-s)
  tight : ∃ s ≤ t, capacity+rate*(t-s) ≤ spent s t log+left
  bound : ∀ s e, s ≤ e → spent s e log ≤ capacity+rate*(e-s)

variable {log : List (R × R)} {t capacity rate left : R}

lemma spent_nonneg (h : ∀ p ∈ log, 0 ≤ p.2) (s e : R) : 0 ≤ spent s e log := by
  refine sum_nonneg fun x hx => ?_
  obtain ⟨p,hp,rfl⟩ := mem_map.mp hx
  exact h p (mem_filter.mp hp).1

omit [IsStrictOrderedRing R] in
lemma spent_past {e : R} (h : ∀ p ∈ log, p.1 ≤ t) (hte : t ≤ e) : spent s e log = spent s t log := by
  unfold spent
  congr 2
  refine filter_congr fun p hp => ?_
  simp [h p hp,(h p hp).trans hte]

omit [IsStrictOrderedRing R] in
lemma spent_future {s : R} (h : ∀ p ∈ log, p.1 ≤ t) (hts : t < s) : spent s e log = 0 := by
  have hnil : log.filter (fun p => s ≤ p.1 ∧ p.1 ≤ e) = [] := by
    refine filter_eq_nil_iff.mpr fun p hp => ?_
    simp [((h p hp).trans_lt hts).not_ge]
  rw [spent,hnil]
  rfl

lemma Metered.start (hcap : 0 ≤ capacity) (hrate : 0 ≤ rate) (t : R) :
    Metered capacity rate [] t capacity := by
  have hgrowth : ∀ {s e : R}, s ≤ e → 0 ≤ rate*(e-s) := fun h => mul_nonneg hrate (sub_nonneg.mpr h)
  refine ⟨by simp,by simp,hcap,le_refl _,fun s hs => ?_,⟨t,le_refl _,?_⟩,fun s e hse => ?_⟩
  · rw [spent_nil]
    linarith [hgrowth hs]
  · simp
  · rw [spent_nil]
    linarith [hgrowth hse]

section
variable (h : Metered capacity rate log t left)
include h

lemma Metered.wait (hrate : 0 ≤ rate) (ht : t ≤ t') :
    Metered capacity rate log t' (min capacity (left+rate*(t'-t))) := by
  have hgrowth : ∀ {s e : R}, s ≤ e → 0 ≤ rate*(e-s) := fun h => mul_nonneg hrate (sub_nonneg.mpr h)
  have hsplit : ∀ s : R, rate*(t'-s) = rate*(t-s)+rate*(t'-t) := fun s => by ring
  have hcap := h.left_nonneg.trans h.left_le
  refine ⟨fun p hp => (h.past p hp).trans ht,h.nonneg,?_,min_le_left _ _,fun s hs => ?_,?_,h.bound⟩
  · exact le_min hcap (add_nonneg h.left_nonneg (hgrowth ht))
  · rcases le_or_gt s t with hst | hst
    · rw [spent_past h.past ht]
      linarith [hsplit s,h.upper s hst,min_le_right capacity (left+rate*(t'-t))]
    · rw [spent_future h.past hst]
      linarith [hgrowth hs,min_le_left capacity (left+rate*(t'-t))]
  · rcases le_total capacity (left+rate*(t'-t)) with hfull | hopen
    · -- Full again: the stretch starts over.
      refine ⟨t',le_refl _,?_⟩
      rw [min_eq_left hfull]
      linarith [spent_nonneg h.nonneg t' t']
    · obtain ⟨s,hs,htig⟩ := h.tight
      refine ⟨s,hs.trans ht,?_⟩
      rw [min_eq_right hopen,spent_past h.past ht]
      linarith [hsplit s]

lemma Metered.spend
    (hrate : 0 ≤ rate) (hx : 0 ≤ x) (hle : x ≤ left) : Metered capacity rate ((t,x)::log) t (left-x) := by
  have hnow : ∀ s ≤ t, spent s t ((t,x)::log) = x+spent s t log := fun s hs => by
    rw [spent_cons,if_pos ⟨hs,le_refl _⟩]
  refine ⟨?_,?_,sub_nonneg.mpr hle,(sub_le_self _ hx).trans h.left_le,fun s hs => ?_,?_,fun s e hse => ?_⟩
  · exact forall_mem_cons.mpr ⟨le_refl _,h.past⟩
  · exact forall_mem_cons.mpr ⟨hx,h.nonneg⟩
  · rw [hnow s hs]
    linarith [h.upper s hs]
  · obtain ⟨s,hs,htig⟩ := h.tight
    refine ⟨s,hs,?_⟩
    rw [hnow s hs]
    linarith
  · rw [spent_cons]
    split_ifs with hin
    · -- All of the log is before the end of the stretch.
      have hgrowth : rate*(t-s) ≤ rate*(e-s) := mul_le_mul_of_nonneg_left (sub_le_sub_right hin.2 s) hrate
      rw [spent_past h.past hin.2]
      linarith [h.upper s hin.1]
    · rw [zero_add]
      exact h.bound s e hse

theorem Metered.exceeds (hx : left < x) : ∃ s ≤ t, capacity+rate*(t-s) < spent s t log+x := by
  obtain ⟨s,hs,htig⟩ := h.tight
  exact ⟨s,hs,by linarith⟩

end

end LurusHub.MeteredSpending
