import Mathlib.Data.List.Pairwise
import Mathlib.Data.List.Sort
import Mathlib.Order.Nat

/-! Reading a table page by page: a page holds the rows after a cursor up to a limit, and the key of
its last row is the next cursor. Besides, the last row below a key. -/
namespace LurusHub.CursorPages
open List

variable {R : Type*} (key : R → ℕ)

def Ordered (l : List R) : Prop := l.Pairwise fun a b => key a < key b

def after (l : List R) (c : ℕ) : List R := l.filter fun r => c < key r

def page (l : List R) (c limit : ℕ) : List R := (after key l c).take limit

/-- The next cursor; 0 where no row remains. -/
def next (l : List R) (c limit : ℕ) : ℕ :=
  if limit < (after key l c).length then ((page key l c limit).getLast?.map key).getD 0 else 0

/-- The calls of a reader that follows the cursors, as pairs of a cursor and a limit. The limits are the caller's. -/
def follow (l : List R) (limits : ℕ → ℕ) : ℕ → ℕ → ℕ → List (ℕ × ℕ)
  | 0,_,_ => []
  | fuel+1,n,c =>
    (c,limits n)::if next key l c (limits n) = 0 then [] else follow l limits fuel (n+1) (next key l c (limits n))

def lastBelow (p : R → Bool) (l : List R) (b : ℕ) : Option R := (l.filter fun r => p r && decide (key r < b)).getLast?

variable {key} {l : List R}

lemma Ordered.inj (hl : Ordered key l) (ha : a ∈ l) (hb : b ∈ l) (h : key a = key b) : a = b := by
  induction l with
  | nil => cases ha
  | cons x xs ih =>
    obtain ⟨hx,hxs⟩ := pairwise_cons.mp hl
    rcases mem_cons.mp ha with rfl | hax <;> rcases mem_cons.mp hb with rfl | hbx
    · rfl
    · exact absurd h (hx b hbx).ne
    · exact absurd h.symm (hx a hax).ne
    · exact ih hxs hax hbx

/-! Pages. -/

lemma mem_after : r ∈ after key l c ↔ r ∈ l ∧ c < key r := by simp [after]

lemma after_ordered (hl : Ordered key l) (c : ℕ) : Ordered key (after key l c) := List.Pairwise.filter _ hl

lemma after_after (h : c ≤ k) : after key (after key l c) k = after key l k := by
  rw [after,after,filter_filter]
  refine filter_congr fun r _ => ?_
  by_cases hk : k < key r
  · simp [Nat.lt_of_le_of_lt h hk]
  · simp [hk]

lemma after_append_last (h : Ordered key (xs++k::ys)) : after key (xs++k::ys) (key k) = ys := by
  obtain ⟨_,htail,hcro⟩ := pairwise_append.mp h
  have hxs : xs.filter (fun r => decide (key k < key r)) = [] := by
    refine filter_eq_nil_iff.mpr fun r hr => ?_
    have := hcro r hr k mem_cons_self
    simp only [decide_eq_true_eq]
    omega
  have hys : ys.filter (fun r => decide (key k < key r)) = ys := by
    refine filter_eq_self.mpr fun r hr => ?_
    simpa using (pairwise_cons.mp htail).1 r hr
  simp [after,hxs,hys]

lemma page_last (hl : Ordered key l) (hlim : 0 < limit) (hmore : limit < (after key l c).length) :
    ∃ k ∈ page key l c limit, next key l c limit = key k ∧ after key l (key k) = (after key l c).drop limit := by
  have hlen : (page key l c limit).length = limit := by
    rw [page,length_take]
    omega
  have hne : page key l c limit ≠ [] := by
    intro hnil
    simp [hnil] at hlen
    omega
  obtain ⟨xs,k,hpage⟩ : ∃ xs k, page key l c limit = xs++[k] := ⟨_,_,(dropLast_append_getLast hne).symm⟩
  have hsplit : after key l c = xs++k::(after key l c).drop limit := by
    have htake := take_append_drop limit (after key l c)
    rw [show (after key l c).take limit = xs++[k] from hpage,append_assoc] at htake
    exact htake.symm
  have hk : k ∈ page key l c limit := by simp [hpage]
  have hck : c < key k := (mem_after.mp (mem_of_mem_take hk)).2
  refine ⟨k,hk,by simp [next,hmore,hpage],?_⟩
  rw [← after_after hck.le]
  have hordered := after_ordered hl c
  rw [hsplit] at hordered
  conv_lhs => rw [hsplit]
  exact after_append_last hordered

theorem follow_pages (hl : Ordered key l) (hpos : ∀ r ∈ l, 0 < key r) (hlim : ∀ n, 0 < limits n)
    (fuel n c : ℕ) (hfuel : (after key l c).length < fuel) :
    (follow key l limits fuel n c).flatMap (fun p => page key l p.1 p.2) = after key l c ∧
      ∃ p, (follow key l limits fuel n c).getLast? = some p ∧ next key l p.1 p.2 = 0 := by
  induction fuel generalizing n c with
  | zero => omega
  | succ fuel ih =>
    by_cases hmore : limits n < (after key l c).length
    · obtain ⟨k,hk,hnext,hrest⟩ := page_last hl (hlim n) hmore
      have hkpos : key k ≠ 0 := by
        have := hpos k (mem_after.mp (mem_of_mem_take hk)).1
        omega
      have hlen : (after key l (key k)).length < fuel := by
        rw [hrest,length_drop]
        have := hlim n
        omega
      obtain ⟨hpag,p,hlast,hend⟩ := ih (n+1) (key k) hlen
      rw [follow,hnext,if_neg hkpos]
      refine ⟨?_,p,?_,hend⟩
      · rw [flatMap_cons,hpag,hrest]
        exact take_append_drop _ _
      · rw [getLast?_cons,hlast]
        rfl
    · have hend : next key l c (limits n) = 0 := if_neg hmore
      rw [follow,hend]
      refine ⟨?_,(c,limits n),rfl,hend⟩
      simpa [page] using take_of_length_le (not_lt.mp hmore)

lemma after_zero (hpos : ∀ r ∈ l, 0 < key r) : after key l 0 = l := filter_eq_self.mpr fun r hr => by simpa using hpos r hr

/-! The last row below a key. -/

lemma getLast?_eq_some_iff (hl : Ordered key l) : l.getLast? = some r ↔ r ∈ l ∧ ∀ q ∈ l, key q ≤ key r := by
  constructor
  · intro h
    obtain ⟨xs,hxs⟩ := List.getLast?_eq_some_iff.mp h
    refine ⟨List.mem_of_getLast? h,fun q hq => ?_⟩
    rw [hxs] at hl hq
    rcases mem_append.mp hq with hq | hq
    · exact ((pairwise_append.mp hl).2.2 q hq r mem_cons_self).le
    · rw [mem_singleton.mp hq]
  · rintro ⟨hr,hmax⟩
    have hne := ne_nil_of_mem hr
    have hlast := getLast?_eq_some_getLast hne
    have hmem := List.getLast_mem hne
    obtain ⟨xs,hxs⟩ := List.getLast?_eq_some_iff.mp hlast
    rw [hlast]
    refine congrArg some (hl.inj hmem hr (Nat.le_antisymm (hmax _ hmem) ?_))
    rw [hxs] at hl hr
    rcases mem_append.mp hr with hr | hr
    · exact ((pairwise_append.mp hl).2.2 r hr _ mem_cons_self).le
    · rw [mem_singleton.mp hr]

section
variable {p : R → Bool} {b : ℕ} {r : R}

lemma lastBelow_eq_some (hl : Ordered key l) :
    lastBelow key p l b = some r ↔ (r ∈ l ∧ p r ∧ key r < b) ∧ ∀ q ∈ l, p q → key q < b → key q ≤ key r := by
  rw [lastBelow,getLast?_eq_some_iff (List.Pairwise.filter _ hl)]
  simp

lemma lastBelow_eq_none : lastBelow key p l b = none ↔ ∀ q ∈ l, p q → b ≤ key q := by
  rw [lastBelow]
  simp

theorem lastBelow_congr (h : ∀ q ∈ l, (p q ∧ key q < b) ↔ (p' q ∧ key q < b')) :
    lastBelow key p l b = lastBelow key p' l b' := by
  rw [lastBelow]
  congr 1
  refine filter_congr fun q hq => ?_
  rw [Bool.eq_iff_iff]
  simpa using h q hq

lemma lastBelow_succ (hl : Ordered key l) (hr : r ∈ l) :
    lastBelow key p l (key r+1) = if p r then some r else lastBelow key p l (key r) := by
  split
  · next hp => exact (lastBelow_eq_some hl).mpr ⟨⟨hr,hp,Nat.lt_succ_self _⟩,fun q _ _ hq => Nat.le_of_lt_succ hq⟩
  · next hp =>
    refine lastBelow_congr fun q hq => and_congr_right fun hpq => ?_
    have hne : key q ≠ key r := fun heq => hp (hl.inj hq hr heq ▸ hpq)
    omega

end

/-! A row that is put in its place. -/

section
variable {r : R}

lemma orderedInsert_ordered (hl : Ordered key l) (hr : ∀ q ∈ l, key q ≠ key r) :
    Ordered key (l.orderedInsert (fun a b => key a ≤ key b) r) := by
  induction l with
  | nil => exact pairwise_singleton _ _
  | cons x xs ih =>
    obtain ⟨hx,hxs⟩ := pairwise_cons.mp hl
    rw [orderedInsert_cons]
    split
    · next hle =>
      have hlt : key r < key x := Nat.lt_of_le_of_ne hle fun heq => hr x mem_cons_self heq.symm
      exact pairwise_cons.mpr ⟨forall_mem_cons.mpr ⟨hlt,fun q hq => hlt.trans (hx q hq)⟩,hl⟩
    · next hle =>
      refine pairwise_cons.mpr ⟨fun q hq => ?_,ih hxs fun q hq => hr q (mem_cons_of_mem _ hq)⟩
      rcases (mem_orderedInsert _).mp hq with rfl | hq
      · exact not_le.mp hle
      · exact hx q hq

lemma filter_orderedInsert (hr : q r = false) :
    (l.orderedInsert (fun a b => key a ≤ key b) r).filter q = l.filter q := by
  induction l with
  | nil => simp [hr]
  | cons x xs ih =>
    rw [orderedInsert_cons]
    split
    · rw [filter_cons_of_neg (by simp [hr])]
    · rw [filter_cons,filter_cons,ih]

lemma lastBelow_insert_of_not (h : p r → b ≤ key r) :
    lastBelow key p (l.orderedInsert (fun a b => key a ≤ key b) r) b = lastBelow key p l b := by
  rw [lastBelow,filter_orderedInsert]
  · rfl
  · cases hp : p r with
    | false => rfl
    | true => simpa using h hp

lemma lastBelow_insert_last (hl : Ordered key l) (hr : ∀ q ∈ l, key q ≠ key r) (hp : p r)
    (hb : key r < b) (hlast : ∀ q ∈ l, p q → key q < key r) :
    lastBelow key p (l.orderedInsert (fun a b => key a ≤ key b) r) b = some r := by
  refine (lastBelow_eq_some (orderedInsert_ordered hl hr)).mpr ⟨⟨(mem_orderedInsert _).mpr (.inl rfl),hp,hb⟩,?_⟩
  intro q hq hpq _
  rcases (mem_orderedInsert _).mp hq with rfl | hq
  · exact le_rfl
  · exact (hlast q hq hpq).le

end

def Consecutive (key : R → ℕ) (l : List R) : ℕ → List R → Prop
  | _,[] => True
  | m,e::es => e ∈ l ∧ (∀ q ∈ l, key q < key e → key q < m) ∧ m ≤ key e ∧ Consecutive key l (key e+1) es

lemma consecutive_of_split (hl : Ordered key (xs++(ys++zs))) (hxs : ∀ q ∈ xs, key q < m)
    (hys : ∀ q ∈ ys++zs, m ≤ key q) : Consecutive key (xs++(ys++zs)) m ys := by
  induction ys generalizing xs m with
  | nil => trivial
  | cons e es ih =>
    obtain ⟨_,htail,hcro⟩ := pairwise_append.mp hl
    have hhead := (pairwise_cons.mp (show List.Pairwise _ (e::(es++zs)) from htail)).1
    refine ⟨by simp,?_,hys e (by simp),?_⟩
    · intro q hq hlt
      rcases mem_append.mp hq with hq | hq
      · exact hxs q hq
      · rcases mem_cons.mp (show q ∈ e::(es++zs) from hq) with rfl | hq
        · omega
        · have := hhead q hq
          omega
    · have hshi : xs++(e::es++zs) = (xs++[e])++(es++zs) := by simp
      rw [hshi] at hl ⊢
      refine ih hl ?_ ?_
      · intro q hq
        rcases mem_append.mp hq with hq | hq
        · have := hcro q hq e (by simp)
          omega
        · rw [mem_singleton.mp hq]
          omega
      · intro q hq
        exact hhead q hq

lemma page_consecutive (hl : Ordered key l) (c limit : ℕ) : Consecutive key l (c+1) (page key l c limit) := by
  have hbelow : l = l.filter (fun r => decide (¬c < key r))++after key l c := by
    induction l with
    | nil => rfl
    | cons x xs ih =>
      obtain ⟨hx,hxs⟩ := pairwise_cons.mp hl
      by_cases hc : c < key x
      · -- from here on every row is after the cursor
        have hall : ∀ r ∈ x::xs, c < key r := forall_mem_cons.mpr ⟨hc,fun r hr => hc.trans (hx r hr)⟩
        rw [after,filter_eq_nil_iff.mpr fun r hr => by simpa using hall r hr,
          filter_eq_self.mpr fun r hr => by simpa using hall r hr]
        rfl
      · have hstep := ih hxs
        rw [after,filter_cons_of_pos (by simpa using hc),filter_cons_of_neg (by simpa using hc)]
        exact congrArg (x::·) hstep
  have hsplit : l = l.filter (fun r => decide (¬c < key r))++(page key l c limit++(after key l c).drop limit) := by
    conv_lhs => rw [hbelow]
    rw [page,take_append_drop]
  have hordered := hl
  rw [hsplit] at hordered
  have h := consecutive_of_split hordered (m:=c+1) ?_ ?_
  · rwa [← hsplit] at h
  · intro q hq
    have := (mem_filter.mp hq).2
    simp only [decide_eq_true_eq] at this
    omega
  · intro q hq
    rw [page,take_append_drop] at hq
    exact (mem_after.mp hq).2

end LurusHub.CursorPages
