import Mathlib.Data.List.Nodup

/-! Database tables as lists of rows with a unique key, which is a field of the table: an insert on
a taken key is refused, and an update never assigns the key column. -/
namespace LurusHub
open List Option

variable {R K : Type*}

@[ext] structure KeyedTable (R K : Type*) (key : R → K) where
  rows : List R
  unique : (rows.map key).Nodup

namespace KeyedTable

variable {key : R → K}

def empty : KeyedTable R K key := ⟨[],List.nodup_nil⟩

/-- `UPDATE ... SET f WHERE p`. -/
def updateWhere (t : KeyedTable R K key) (p : R → Bool) (f : R → R)
    (hf : ∀ r, key (f r) = key r := by intro _; rfl) : KeyedTable R K key where
  rows := t.rows.map fun r => if p r then f r else r
  unique := by
    have hk : (key ∘ fun r => if p r then f r else r) = key := by
      funext r
      by_cases hp : p r <;> simp [hp,hf]
    rw [List.map_map,hk]
    exact t.unique

instance [DecidableEq R] : DecidableEq (KeyedTable R K key) := fun t u =>
  decidable_of_iff (t.rows = u.rows) (by cases t; cases u; simp)

variable [DecidableEq K] {l : List R} {r : R} {t : KeyedTable R K key} {k : K}

lemma filter_key_eq (hl : (l.map key).Nodup) (hr : r ∈ l) :
    l.filter (fun x => key x = key r) = [r] := by
  induction l with
  | nil => cases hr
  | cons x xs ih =>
    rw [map_cons,nodup_cons] at hl
    rcases mem_cons.mp hr with rfl | hr
    · have hrest : xs.filter (fun y => key y = key r) = [] := by
        apply filter_eq_nil_iff.mpr
        intro y hy
        have hne : key y ≠ key r := fun h => hl.1 (h ▸ mem_map_of_mem hy)
        simpa using hne
      simp [hrest]
    · have hne : key x ≠ key r := fun h => hl.1 (h ▸ mem_map_of_mem hr)
      simpa [hne] using ih hl.2 hr

/-- `SELECT ... WHERE key = k`. -/
def get? (t : KeyedTable R K key) (k : K) : Option R := t.rows.find? fun r => key r = k

/-- `UPDATE ... SET f WHERE key = k`. -/
def modify (t : KeyedTable R K key) (k : K) (f : R → R)
    (hf : ∀ r, key (f r) = key r := by intro _; rfl) : KeyedTable R K key :=
  t.updateWhere (fun r => key r = k) f hf

lemma get?_eq_none : t.get? k = none ↔ ∀ r ∈ t.rows, key r ≠ k := by
  simp [get?]

lemma key_of_get? (h : t.get? k = some r) : key r = k := by
  simpa using find?_some h

lemma mem_of_get? (h : t.get? k = some r) : r ∈ t.rows := mem_of_find?_eq_some h

lemma get?_of_mem (h : r ∈ t.rows) : t.get? (key r) = some r := by
  cases hg : t.get? (key r) with
  | none => exact absurd rfl (get?_eq_none.mp hg r h)
  | some q =>
    have hq := inj_on_of_nodup_map t.unique (mem_of_get? hg) h (key_of_get? hg)
    rw [hq]

lemma mem_iff_get? : r ∈ t.rows ↔ t.get? (key r) = some r := ⟨get?_of_mem,mem_of_get?⟩

/-- `INSERT`; `none` is a unique violation. -/
def insert? (t : KeyedTable R K key) (r : R) : Option (KeyedTable R K key) :=
  if h : t.get? (key r) = none then
    some ⟨t.rows++[r],by
      rw [List.map_append,List.map_singleton]
      refine List.Nodup.append t.unique (List.nodup_singleton _) ?_
      intro k hk hk'
      obtain ⟨q,hq,rfl⟩ := List.mem_map.mp hk
      exact get?_eq_none.mp h q hq (List.mem_singleton.mp hk')⟩
  else none

/-- `DELETE ... WHERE key = k`. -/
def delete (t : KeyedTable R K key) (k : K) : KeyedTable R K key where
  rows := t.rows.filter fun r => key r ≠ k
  unique := t.unique.sublist (List.filter_sublist.map key)

/-- The row of its key from now on, as an assignment to a map entry. -/
def put (t : KeyedTable R K key) (r : R) : KeyedTable R K key where
  rows := (t.delete (key r)).rows++[r]
  unique := by
    rw [List.map_append,List.map_singleton]
    refine List.Nodup.append (t.delete (key r)).unique (List.nodup_singleton _) ?_
    intro k hk hk'
    obtain ⟨q,hq,rfl⟩ := List.mem_map.mp hk
    have hne : key q ≠ key r := by simpa using (List.mem_filter.mp hq).2
    exact hne (List.mem_singleton.mp hk')

def size (t : KeyedTable R K key) : ℕ := t.rows.length

lemma size_put (t : KeyedTable R K key) (r : R) : (t.put r).size = (t.delete (key r)).size+1 := by
  simp [size,put]

@[simp] lemma get?_empty : (empty : KeyedTable R K key).get? k = none := rfl

lemma get?_updateWhere (t : KeyedTable R K key) (p : R → Bool) (f : R → R)
    (hf : ∀ r, key (f r) = key r) (k : K) :
    (t.updateWhere p f hf).get? k = (t.get? k).map fun r => if p r then f r else r := by
  have hk : ((fun r => decide (key r = k)) ∘ fun r => if p r then f r else r) =
      fun r => decide (key r = k) := by
    funext r
    by_cases hp : p r <;> simp [hp,hf]
  simp only [get?,updateWhere,find?_map,hk]

@[simp] lemma get?_modify_self (t : KeyedTable R K key) (k : K) (f : R → R)
    (hf : ∀ r, key (f r) = key r) : (t.modify k f hf).get? k = (t.get? k).map f := by
  rw [modify,get?_updateWhere]
  cases h : t.get? k with
  | none => rfl
  | some r => simp [key_of_get? h]

lemma get?_modify_of_ne (t : KeyedTable R K key) (f : R → R)
    (hf : ∀ r, key (f r) = key r) (hne : k' ≠ k) : (t.modify k f hf).get? k' = t.get? k' := by
  rw [modify,get?_updateWhere]
  cases h : t.get? k' with
  | none => rfl
  | some r => simp [key_of_get? h,hne]

lemma get?_modify (t : KeyedTable R K key) (k k' : K) (f : R → R) (hf : ∀ r, key (f r) = key r) :
    (t.modify k f hf).get? k' = if k' = k then (t.get? k').map f else t.get? k' := by
  split
  · next h => subst h; exact get?_modify_self t _ f hf
  · next h => exact get?_modify_of_ne t f hf h

lemma insert?_eq_some : t.insert? r = some t' ↔ t.get? (key r) = none ∧ t'.rows = t.rows++[r] := by
  unfold insert?
  split
  · next h =>
    rw [some.injEq]
    constructor
    · rintro rfl
      exact ⟨h,rfl⟩
    · rintro ⟨_,hr⟩
      cases t'
      simp_all
  · next h => simp [h]

lemma insert?_eq_none : t.insert? r = none ↔ ∃ q, t.get? (key r) = some q := by
  unfold insert?
  split
  · next h => simp [h]
  · next h => simpa using ne_none_iff_exists'.mp h

lemma get?_insert? (h : t.insert? r = some t') (k : K) :
    t'.get? k = if k = key r then some r else t.get? k := by
  obtain ⟨hnone,hrows⟩ := insert?_eq_some.mp h
  unfold get? at hnone ⊢
  rw [hrows,find?_append]
  split
  · next hk => subst hk; simp [hnone]
  · next hk =>
    have hr : find? (fun r => decide (key r = k)) [r] = none := by simp [Ne.symm hk]
    rw [hr,or_none]

/-- `DELETE ... WHERE p`. -/
def deleteWhere (t : KeyedTable R K key) (p : R → Bool) : KeyedTable R K key where
  rows := t.rows.filter fun r => !p r
  unique := t.unique.sublist (List.filter_sublist.map key)

lemma get?_deleteWhere (t : KeyedTable R K key) (p : R → Bool) (k : K) :
    (t.deleteWhere p).get? k = (t.get? k).filter fun r => !p r := by
  cases h : t.get? k with
  | none =>
    rw [get?_eq_none] at h
    exact get?_eq_none.mpr fun r hr => h r (mem_filter.mp hr).1
  | some r =>
    have hr := mem_of_get? h
    have hk := key_of_get? h
    cases hp : p r with
    | false =>
      have hmem : r ∈ (t.deleteWhere p).rows := mem_filter.mpr ⟨hr,by simp [hp]⟩
      rw [← hk,get?_of_mem hmem,filter_some_pos (by simp [hp])]
    | true =>
      have hnone : (t.deleteWhere p).get? k = none := by
        refine get?_eq_none.mpr fun q hq hqk => ?_
        obtain ⟨hq,hpq⟩ := mem_filter.mp hq
        rw [inj_on_of_nodup_map t.unique hq hr (hqk.trans hk.symm),hp] at hpq
        cases hpq
      rw [hnone,filter_some_neg (by simp [hp])]

lemma get?_delete (t : KeyedTable R K key) (k k' : K) :
    (t.delete k).get? k' = if k' = k then none else t.get? k' := by
  split
  · next h =>
    subst h
    exact get?_eq_none.mpr fun r hr => by simpa using (mem_filter.mp hr).2
  · next h =>
    have hself : (fun r => decide (decide (key r ≠ k) ∧ decide (key r = k'))) = fun r => decide (key r = k') := by
      funext r
      by_cases hr : key r = k' <;> simp [hr,h]
    simp only [get?,delete,find?_filter,hself]

lemma get?_put (t : KeyedTable R K key) (r : R) (k : K) :
    (t.put r).get? k = if k = key r then some r else t.get? k := by
  have hdelete := get?_delete t (key r) k
  unfold get? at hdelete ⊢
  simp only [put,find?_append,hdelete]
  split
  · next h => simp [h]
  · next h => simp [Ne.symm h]

lemma forall_get?_put {P : K → R → Prop} (hnew : P (key r) r)
    (hold : ∀ k q, t.get? k = some q → P k q) : ∀ k q, (t.put r).get? k = some q → P k q := by
  intro k q hq
  rw [get?_put] at hq
  split at hq
  · next hk =>
    cases hq
    rw [hk]
    exact hnew
  · exact hold k q hq

lemma forall_get?_delete {P : K → R → Prop} (h : ∀ k q, t.get? k = some q → P k q) (i : K) :
    ∀ k q, (t.delete i).get? k = some q → P k q := by
  intro k q hq
  rw [get?_delete] at hq
  split at hq
  · cases hq
  · exact h k q hq

lemma mem_map_rows : k ∈ t.rows.map key ↔ (t.get? k).isSome := by
  rw [← not_iff_not,Bool.not_eq_true,isSome_eq_false_iff,isNone_iff_eq_none,get?_eq_none]
  simp

lemma size_put_of_none (h : t.get? (key r) = none) : (t.put r).size = t.size+1 := by
  have hdelete : (t.delete (key r)).rows = t.rows := filter_eq_self.mpr fun q hq => by simpa using get?_eq_none.mp h q hq
  rw [size_put,size,size,hdelete]

lemma mem_delete : r ∈ (t.delete k).rows ↔ r ∈ t.rows ∧ key r ≠ k := by
  simp [delete]

lemma mem_put : q ∈ (t.put r).rows ↔ q = r ∨ q ∈ t.rows ∧ key q ≠ key r := by
  rw [put,mem_append,mem_delete,mem_singleton,or_comm]

lemma mem_foldl_put (h : q ∈ (l.foldl put t).rows) : q ∈ t.rows ∨ q ∈ l := by
  induction l generalizing t with
  | nil => exact .inl h
  | cons r l ih =>
    rcases ih h with hput | hl
    · rcases mem_put.mp hput with rfl | ⟨ht,_⟩
      · exact .inr mem_cons_self
      · exact .inl ht
    · exact .inr (mem_cons_of_mem _ hl)

lemma get?_foldl_put_of_notMem (h : k ∉ l.map key) : (l.foldl put t).get? k = t.get? k := by
  induction l generalizing t with
  | nil => rfl
  | cons r l ih =>
    rw [map_cons,mem_cons,not_or] at h
    rw [foldl_cons,ih h.2,get?_put,if_neg h.1]

lemma get?_foldl_put_of_mem (hl : (l.map key).Nodup) (hr : r ∈ l) (t : KeyedTable R K key) :
    (l.foldl put t).get? (key r) = some r := by
  induction l generalizing t with
  | nil => exact absurd hr not_mem_nil
  | cons q l ih =>
    rw [map_cons,nodup_cons] at hl
    rcases mem_cons.mp hr with rfl | hr
    · rw [foldl_cons,get?_foldl_put_of_notMem hl.1,get?_put,if_pos rfl]
    · exact ih hl.2 hr _

omit [DecidableEq K] in
lemma deleteWhere_eq_self {p : R → Bool} (h : ∀ r ∈ t.rows, p r = false) : t.deleteWhere p = t := by
  ext1
  exact filter_eq_self.mpr fun r hr => by simp [h r hr]

end KeyedTable
end LurusHub
