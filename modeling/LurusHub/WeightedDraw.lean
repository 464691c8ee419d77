import Mathlib.Algebra.BigOperators.Group.List.Basic
import Mathlib.Algebra.Order.Ring.Int
import Mathlib.Data.Nat.Count

/-! A draw by weight from a list. The drawn number is counted down by the weights; the
item that would take it below zero is drawn. Which items can be drawn does not depend
on their order. -/
namespace LurusHub.WeightedDraw
open List

variable {α : Type*}

def pick : List (α × ℕ) → ℕ → Option α
  | [],_ => none
  | (a,w)::items,r => if r < w then some a else pick items (r-w)

def total (items : List (α × ℕ)) : ℕ := (items.map Prod.snd).sum

@[simp] lemma total_cons (a : α) (w : ℕ) (items : List (α × ℕ)) : total ((a,w)::items) = w+total items := by
  simp [total]

theorem pick_append (before items : List (α × ℕ)) (r : ℕ) :
    pick (before++items) (total before+r) = pick items r := by
  induction before with
  | nil => simp [total]
  | cons x before ih =>
    obtain ⟨a,w⟩ := x
    have hge : ¬w+total before+r < w := by omega
    have hrest : w+total before+r-w = total before+r := by omega
    rw [cons_append,pick,total_cons,if_neg hge,hrest,ih]

variable {items : List (α × ℕ)}

lemma mem_of_pick (h : pick items r = some a) : ∃ w, (a,w) ∈ items ∧ 0 < w := by
  induction items generalizing r with
  | nil => cases h
  | cons x items ih =>
    obtain ⟨b,w⟩ := x
    rw [pick] at h
    split at h
    · next hlt =>
      cases h
      exact ⟨w,mem_cons_self,by omega⟩
    · obtain ⟨w',hmem,hpos⟩ := ih h
      exact ⟨w',mem_cons_of_mem _ hmem,hpos⟩

lemma pick_ne_none (h : r < total items) : pick items r ≠ none := by
  induction items generalizing r with
  | nil => simp [total] at h
  | cons x items ih =>
    rw [total_cons] at h
    rw [pick]
    split
    · simp
    · exact ih (by omega)

lemma exists_pick (h : (a,w) ∈ items) (hw : 0 < w) : ∃ r < total items, pick items r = some a := by
  obtain ⟨before,after,rfl⟩ := append_of_mem h
  refine ⟨total before,?_,?_⟩
  · simp only [total,map_append,map_cons,sum_append,sum_cons]
    omega
  · have hpick := pick_append before ((a,w)::after) 0
    rwa [Nat.add_zero,pick,if_pos hw] at hpick

theorem exists_draw_iff (h : 0 < total items) (o : Option α) :
    (∃ draw, pick items (draw%total items) = o) ↔ ∃ a w, o = some a ∧ (a,w) ∈ items ∧ 0 < w := by
  constructor
  · rintro ⟨draw,rfl⟩
    obtain ⟨a,ha⟩ := Option.ne_none_iff_exists'.mp (pick_ne_none (Nat.mod_lt draw h))
    obtain ⟨w,hmem,hw⟩ := mem_of_pick ha
    exact ⟨a,w,ha,hmem,hw⟩
  · rintro ⟨a,w,rfl,hmem,hw⟩
    obtain ⟨r,hr,hpick⟩ := exists_pick hmem hw
    exact ⟨r,by rw [Nat.mod_eq_of_lt hr,hpick]⟩

/-! How many numbers draw an item. -/

section
variable [DecidableEq α]

def share (items : List (α × ℕ)) (a : α) : ℕ := ((items.filter fun x => x.1 = a).map Prod.snd).sum

@[simp] lemma share_cons : share ((b,w)::items) a = (if b = a then w else 0)+share items a := by
  by_cases h : b = a <;> simp [share,h]

theorem count_pick (items : List (α × ℕ)) (a : α) : Nat.count (fun r => pick items r = some a) (total items) = share items a := by
  induction items with
  | nil => rfl
  | cons x items ih =>
    obtain ⟨b,w⟩ := x
    have hhere : Nat.count (fun r => pick ((b,w)::items) r = some a) w = if b = a then w else 0 := by
      split
      · next hb => exact Nat.count_of_forall fun r hr => by simp [pick,hr,hb]
      · next hb => exact Nat.count_of_forall_not fun r hr => by simp [pick,hr,hb]
    have hthe : ∀ r, pick ((b,w)::items) (w+r) = pick items r := by
      intro r
      simp [pick]
    rw [total_cons,Nat.count_add,hhere,share_cons]
    simp only [hthe,ih]

lemma share_map (l : List α) (w : α → ℕ) (a : α) : share (l.map fun b => (b,w b)) a = l.count a*w a := by
  induction l with
  | nil => simp [share]
  | cons b l ih =>
    rw [map_cons,share_cons,ih]
    by_cases h : b = a
    · simp [h,Nat.add_mul,Nat.add_comm]
    · simp [h]

end

/-! The same walk with the test for zero or less. -/

/-- The item that would take the number to zero or below is drawn. -/
def pickLe : List (α × ℕ) → ℕ → Option α
  | [],_ => none
  | (a,w)::items,r => if r ≤ w then some a else pickLe items (r-w)

theorem pickLe_succ : pickLe items (r+1) = pick items r := by
  induction items generalizing r with
  | nil => rfl
  | cons x items ih =>
    obtain ⟨a,w⟩ := x
    rw [pickLe,pick]
    by_cases h : r < w
    · rw [if_pos h,if_pos (by omega)]
    · have hsub : r+1-w = r-w+1 := by omega
      rw [if_neg h,if_neg (by omega),hsub,ih]

lemma pickLe_ne_none (h : r < total items) : pickLe items r ≠ none := by
  cases r with
  | zero =>
    cases items with
    | nil => simp [total] at h
    | cons x items => simp [pickLe]
  | succ r =>
    rw [pickLe_succ]
    exact pick_ne_none (by omega)

theorem count_pickLe_head [DecidableEq α] (hpos : 0 < total items) (ha : ∀ x ∈ items, x.1 ≠ a) :
    Nat.count (fun r => pickLe ((a,w)::items) r = some a) (total ((a,w)::items)) = w+1 := by
  obtain ⟨n,hn⟩ := Nat.exists_eq_succ_of_ne_zero hpos.ne'
  have htotal : total ((a,w)::items) = w+n+1 := by rw [total_cons,hn]; rfl
  have hrest : ∀ r < n, pick ((a,w)::items) (w+r) ≠ some a := by
    intro r _ hpick
    have hthe : pick ((a,w)::items) (w+r) = pick items r := by simp [pick]
    rw [hthe] at hpick
    obtain ⟨v,hmem,-⟩ := mem_of_pick hpick
    exact ha _ hmem rfl
  have hhere : ∀ r < w, pick ((a,w)::items) r = some a := fun r hr => by simp [pick,hr]
  rw [htotal,Nat.count_succ',Nat.count_add]
  simp only [pickLe_succ,Nat.count_of_forall hhere,Nat.count_of_forall_not hrest]
  simp [pickLe]

lemma count_pickLe_singleton [DecidableEq α] (a : α) (w : ℕ) :
    Nat.count (fun r => pickLe [(a,w)] r = some a) (total [(a,w)]) = w := by
  have htotal : total [(a,w)] = w := by simp [total]
  rw [htotal]
  exact Nat.count_of_forall fun r hr => by simp [pickLe,hr.le]

end LurusHub.WeightedDraw
