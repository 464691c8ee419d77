import LurusHub.KeyedTable
import Mathlib.Algebra.Order.BigOperators.Group.List

/-! Totals over the rows of a keyed table. An insert adds its row, and an update adds what
each row that it touches weighs more than before. -/
namespace LurusHub.KeyedTable
open List

variable {R K M : Type*} {key : R → K}

/-- `SELECT SUM(w)`. -/
def total [AddMonoid M] (t : KeyedTable R K key) (w : R → M) : M := (t.rows.map w).sum

variable {t : KeyedTable R K key}

lemma total_congr [AddMonoid M] {v w : R → M} (h : ∀ r ∈ t.rows, v r = w r) : t.total v = t.total w := by
  rw [total,map_congr_left h]
  rfl

lemma total_eq_zero [AddMonoid M] {w : R → M} (h : ∀ r ∈ t.rows, w r = 0) : t.total w = 0 := by
  refine sum_eq_zero fun x hx => ?_
  obtain ⟨r,hr,rfl⟩ := mem_map.mp hx
  exact h r hr

lemma total_put_of_none [AddMonoid M] [DecidableEq K] (h : t.get? (key r) = none) (w : R → M) :
    (t.put r).total w = t.total w+w r := by
  have hdelete : (t.delete (key r)).rows = t.rows := filter_eq_self.mpr fun q hq => by simpa using get?_eq_none.mp h q hq
  simp [total,put,hdelete]

lemma total_key [AddCommMonoid M] [DecidableEq K] (h : t.get? k = some r) (w : R → M) :
    t.total (fun q => if key q = k then w q else 0) = w r := by
  obtain rfl := key_of_get? h
  rw [total,sum_map_ite,filter_key_eq t.unique (mem_of_get? h)]
  simp

section
variable [AddCommGroup M]

lemma total_neg (t : KeyedTable R K key) (w : R → M) : (t.total fun r => -w r) = -t.total w := by
  rw [total,total,sum_neg,map_map]
  rfl

lemma total_updateWhere (t : KeyedTable R K key) (p : R → Bool) (f : R → R) (hf : ∀ r, key (f r) = key r) (w : R → M) :
    (t.updateWhere p f hf).total w = t.total w+t.total fun r => if p r then w (f r)-w r else 0 := by
  rw [total,total,total,← sum_map_add,updateWhere,map_map]
  congr 2
  funext r
  by_cases hp : p r <;> simp [hp]

lemma total_modify [DecidableEq K] (h : t.get? k = some r) (f : R → R)
    (hf : ∀ r, key (f r) = key r) (w : R → M) : (t.modify k f hf).total w = t.total w+(w (f r)-w r) := by
  rw [modify,total_updateWhere,← total_key h fun q => w (f q)-w q]
  simp

lemma total_delete [DecidableEq K] (h : t.get? k = some r) (w : R → M) : (t.delete k).total w = t.total w-w r := by
  obtain rfl := key_of_get? h
  have hsplit := sum_map_ite (fun q => key q = key r) w w t.rows
  rw [filter_key_eq t.unique (mem_of_get? h)] at hsplit
  simp only [ite_self,map_singleton,sum_singleton] at hsplit
  simp [total,delete,hsplit]

/-- Adds to the row of the key, or inserts its first row. -/
def upsert [DecidableEq K] (t : KeyedTable R K key) (r : R) (f : R → R) (hf : ∀ q, key (f q) = key q) : KeyedTable R K key :=
  if (t.get? (key r)).isSome then t.modify (key r) f hf else t.put r

lemma total_upsert [DecidableEq K] {hf : ∀ q, key (f q) = key q} {w : R → M}
    (hw : ∀ q ∈ t.rows, key q = key r → w (f q) = w q+w r) :
    (t.upsert r f hf).total w = t.total w+w r := by
  cases hq : t.get? (key r) with
  | none => simp [upsert,hq,total_put_of_none hq]
  | some q => simp [upsert,hq,total_modify hq,hw q (mem_of_get? hq) (key_of_get? hq)]

lemma sum_map_set {l : List R} (h : l[i]? = some a) (b : R) (w : R → M) :
    ((l.set i b).map w).sum = (l.map w).sum+(w b-w a) := by
  obtain ⟨hi,rfl⟩ := List.getElem?_eq_some_iff.mp h
  simp [map_set,sum_set',hi,sub_eq_neg_add]

end

/-- 64-bit integers add up modulo 2^64. -/
@[reducible] def int64Group : AddCommGroup Int64 where
  add_assoc := Int64.add_assoc
  zero_add := Int64.zero_add
  add_zero := Int64.add_zero
  add_comm := Int64.add_comm
  neg_add_cancel := Int64.add_left_neg
  sub_eq_add_neg := Int64.sub_eq_add_neg
  nsmul := nsmulRec
  zsmul := zsmulRec

theorem total_eq_zero_iff [AddCommMonoid M] [PartialOrder M] [IsOrderedAddMonoid M] {w : R → M}
    (hw : ∀ r ∈ t.rows, 0 ≤ w r) : t.total w = 0 ↔ ∀ r ∈ t.rows, w r = 0 := by
  refine ⟨fun hzero r hr => le_antisymm ?_ (hw r hr),total_eq_zero⟩
  have hnonneg : ∀ x ∈ t.rows.map w, 0 ≤ x := by
    intro x hx
    obtain ⟨q,hq,rfl⟩ := mem_map.mp hx
    exact hw q hq
  exact (single_le_sum hnonneg _ (mem_map_of_mem hr)).trans_eq hzero

end LurusHub.KeyedTable
