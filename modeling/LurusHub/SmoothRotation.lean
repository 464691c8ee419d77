import Mathlib.Algebra.BigOperators.Ring.Finset
import Mathlib.Algebra.Order.BigOperators.Group.Finset
import Mathlib.Data.Nat.Count
import Mathlib.Tactic.Linarith
import Mathlib.Tactic.Ring

/-! Smooth weighted rotation. In every turn each member gains its weight and a highest one pays the
sum of the weights back. The credits add up to zero and none falls below the sum. -/
namespace LurusHub.SmoothRotation
open Finset

variable {ι : Type*} [DecidableEq ι]

structure Turn (live : Finset ι) (weight c : ι → ℤ) (b : ι) (c' : ι → ℤ) : Prop where
  mem : b ∈ live
  highest : ∀ i ∈ live, c i+weight i ≤ c b+weight b
  after : ∀ i ∈ live, c' i = c i+weight i-if i = b then ∑ j ∈ live, weight j else 0

structure Rotation (live : Finset ι) (weight : ι → ℤ) (c : ℕ → ι → ℤ) (winner : ℕ → ι) : Prop where
  start : ∀ i ∈ live, c 0 i = 0
  turn : ∀ n, Turn live weight (c n) (winner n) (c (n+1))

section
variable {live : Finset ι} {weight c c' : ι → ℤ} {b : ι}

lemma Turn.sum (h : Turn live weight c b c') : ∑ i ∈ live, c' i = ∑ i ∈ live, c i := by
  rw [sum_congr rfl h.after,sum_sub_distrib,sum_add_distrib,sum_ite_eq' live b,if_pos h.mem]
  ring

lemma Turn.raised_pos (h : Turn live weight c b c') (hsum : ∑ i ∈ live, c i = 0) (hpos : 0 < ∑ i ∈ live, weight i) :
    0 < c b+weight b := by
  by_contra hneg
  have hle := sum_nonpos fun i hi => (h.highest i hi).trans (not_lt.mp hneg)
  rw [sum_add_distrib] at hle
  linarith

lemma Turn.gt_neg (h : Turn live weight c b c') (hsum : ∑ i ∈ live, c i = 0) (hweight : ∀ i ∈ live, 0 < weight i)
    (hc : ∀ i ∈ live, -∑ j ∈ live, weight j < c i) : ∀ i ∈ live, -∑ j ∈ live, weight j < c' i := by
  have hpos : 0 < ∑ i ∈ live, weight i := sum_pos hweight ⟨b,h.mem⟩
  have hraised := h.raised_pos hsum hpos
  intro i hi
  rw [h.after i hi]
  split
  · next heq => subst heq; linarith
  · linarith [hc i hi,hweight i hi]

end

section
variable {live : Finset ι} {weight : ι → ℤ} {c : ℕ → ι → ℤ} {winner : ℕ → ι}

section
variable (h : Rotation live weight c winner)
include h

lemma Rotation.sum_eq_zero (n : ℕ) : ∑ i ∈ live, c n i = 0 := by
  induction n with
  | zero => exact Finset.sum_eq_zero h.start
  | succ n ih => rw [(h.turn n).sum,ih]

lemma Rotation.gt_neg (hweight : ∀ i ∈ live, 0 < weight i) (n : ℕ) : ∀ i ∈ live, -∑ j ∈ live, weight j < c n i := by
  induction n with
  | zero =>
    intro i hi
    rw [h.start i hi,neg_lt_zero]
    exact sum_pos hweight ⟨i,hi⟩
  | succ n ih => exact (h.turn n).gt_neg (h.sum_eq_zero n) hweight ih

lemma Rotation.add_le (hweight : ∀ i ∈ live, 0 < weight i) (n : ℕ) {i : ι} (hi : i ∈ live) :
    c n i+∑ j ∈ live, weight j ≤ live.card*∑ j ∈ live, weight j := by
  have hothers : ∑ j ∈ live.erase i, -c n j ≤ (live.erase i).card • ∑ j ∈ live, weight j :=
    sum_le_card_nsmul _ _ _ fun j hj => by linarith [h.gt_neg hweight n j (mem_of_mem_erase hj)]
  have hsum := h.sum_eq_zero n
  rw [← add_sum_erase _ _ hi] at hsum
  rw [sum_neg_distrib,card_erase_of_mem hi,nsmul_eq_mul,Nat.cast_pred (card_pos.mpr ⟨i,hi⟩),sub_one_mul] at hothers
  linarith

theorem Rotation.credit (n : ℕ) (hi : i ∈ live) :
    c n i = n*weight i-(∑ j ∈ live, weight j)*Nat.count (fun m => winner m = i) n := by
  induction n with
  | zero => simp [h.start i hi]
  | succ n ih =>
    rw [(h.turn n).after i hi,ih,Nat.count_succ]
    by_cases hw : winner n = i
    · rw [if_pos hw.symm,if_pos hw]
      push_cast
      ring
    · rw [if_neg (Ne.symm hw),if_neg hw]
      push_cast
      ring

theorem Rotation.returns (hweight : ∀ i ∈ live, 0 < weight i) {W : ℕ}
    (hW : ∑ j ∈ live, weight j = W) (k : ℕ) : ∀ i ∈ live, c (k*W) i = 0 := by
  have hcredit : ∀ i ∈ live, c (k*W) i = W*(k*weight i-Nat.count (fun m => winner m = i) (k*W)) := by
    intro i hi
    rw [h.credit (k*W) hi,hW]
    push_cast
    ring
  -- a multiple of the sum that is above minus the sum is not negative
  have hnonneg : ∀ i ∈ live, 0 ≤ c (k*W) i := by
    intro i hi
    have hlt := h.gt_neg hweight (k*W) i hi
    rw [hcredit i hi] at hlt
    rw [hcredit i hi]
    have hquot : -1 < k*weight i-Nat.count (fun m => winner m = i) (k*W) := by
      by_contra hle
      have hmul := mul_le_mul_of_nonneg_left (not_lt.mp hle) (Int.natCast_nonneg W)
      linarith
    exact mul_nonneg (Int.natCast_nonneg W) (by omega)
  exact (sum_eq_zero_iff_of_nonneg hnonneg).mp (h.sum_eq_zero (k*W))

lemma Rotation.count_eq (hweight : ∀ i ∈ live, 0 < weight i) {W : ℕ}
    (hW : ∑ j ∈ live, weight j = W) (k : ℕ) (hi : i ∈ live) :
    (Nat.count (fun m => winner m = i) (k*W) : ℤ) = k*weight i := by
  have hzero := h.returns hweight hW k i hi
  have hpos : (0 : ℤ) < W := hW ▸ sum_pos hweight ⟨i,hi⟩
  rw [h.credit (k*W) hi,hW] at hzero
  push_cast at hzero
  have hmul : (W : ℤ)*(k*weight i-Nat.count (fun m => winner m = i) (k*W)) = 0 := by linarith
  rcases mul_eq_zero.mp hmul with hW0 | hdiff
  · omega
  · linarith

theorem Rotation.count_block (hweight : ∀ i ∈ live, 0 < weight i) {W : ℕ}
    (hW : ∑ j ∈ live, weight j = W) (k : ℕ) (hi : i ∈ live) :
    (Nat.count (fun m => winner (k*W+m) = i) W : ℤ) = weight i := by
  have hbefore := h.count_eq hweight hW k hi
  have hafter := h.count_eq hweight hW (k+1) hi
  have hsplit := Nat.count_add (fun m => winner m = i) (k*W) W
  rw [← Nat.succ_mul] at hsplit
  push_cast at hafter
  linarith

end

end

end LurusHub.SmoothRotation
