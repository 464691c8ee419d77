import Mathlib.Algebra.Order.Group.Basic
import Mathlib.Data.List.Pairwise
import Mathlib.Order.Nat

/-! Sliding windows over a log of times, newest first. A limiter drops what has left the window, or
what is beyond the newest so many, and can still tell how many of the log are in the window. -/
namespace LurusHub.SlidingWindow
open List

section Order
variable {T : Type*} [LinearOrder T]

def since (c : T) (log : List T) : List T := log.filter fun t => c < t

@[simp] lemma since_nil (c : T) : since c [] = [] := rfl

lemma since_cons_of_lt (h : c < t) (log : List T) : since c (t::log) = t::since c log :=
  filter_cons_of_pos (by simpa using h)

variable {log : List T}

lemma mem_since : t ∈ since c log ↔ t ∈ log ∧ c < t := by simp [since]

lemma since_since (h : c ≤ c') (log : List T) : since c' (since c log) = since c' log := by
  rw [since,since,filter_filter]
  refine filter_congr fun t _ => ?_
  simp only [Bool.and_eq_left_iff_imp,decide_eq_true_eq]
  exact h.trans_lt

lemma since_eq_nil (h : ∀ t ∈ log, t ≤ c) : since c log = [] :=
  filter_eq_nil_iff.mpr fun t ht => by simpa using h t ht

lemma length_since_lt_iff (h : log.Pairwise (· ≥ ·)) (holdest : log.getLast? = some oldest) (c : T) :
    (since c log).length < log.length ↔ oldest ≤ c := by
  rw [since,length_filter_lt_length_iff_exists]
  have hmem : oldest ∈ log := mem_of_getLast? holdest
  constructor
  · rintro ⟨t,ht,hc⟩
    have hle := h.rel_getLast ht
    rw [getLast_of_getLast?_eq_some holdest] at hle
    exact hle.trans (by simpa using hc)
  · exact fun hle => ⟨oldest,hmem,by simpa using hle⟩

/-! Dropping what has left the window. -/

lemma dropWhile_le {l : List T} (h : l.Pairwise (· ≤ ·)) : l.dropWhile (fun t => t ≤ c) = l.filter fun t => c < t := by
  induction l with
  | nil => rfl
  | cons t l ih =>
    obtain ⟨ht,hl⟩ := pairwise_cons.mp h
    by_cases hc : t ≤ c
    · rw [dropWhile_cons_of_pos (by simpa using hc),filter_cons_of_neg (by simpa using hc)]
      exact ih hl
    · rw [dropWhile_cons_of_neg (by simpa using hc)]
      refine (filter_eq_self.mpr fun s hs => ?_).symm
      rcases mem_cons.mp hs with rfl | hs
      · simpa using hc
      · exact decide_eq_true ((not_le.mp hc).trans_le (ht s hs))

lemma dropWhile_since (h : log.Pairwise (· ≥ ·)) (hc : c ≤ c') :
    (since c log).reverse.dropWhile (fun t => t ≤ c') = (since c' log).reverse := by
  have hsorted : (since c log).reverse.Pairwise (· ≤ ·) := pairwise_reverse.mpr (h.filter _)
  rw [dropWhile_le hsorted,filter_reverse,← since_since hc log]
  rfl

/-! Keeping the newest. -/

def kept (k : ℕ) (e : T) (log : List T) : List T := (since e log).take k

lemma kept_cons (h : e < t) : kept k e (t::log) = (t::kept k e log).take k := by
  rw [kept,kept,since_cons_of_lt h]
  cases k with
  | zero => rfl
  | succ k => simp [take_take]

lemma le_length_since (h : log.Pairwise (· ≥ ·)) :
    k ≤ (since c log).length ↔ (log.take k).length = k ∧ ∀ t ∈ log.take k, c < t := by
  induction log generalizing k with
  | nil => simp [eq_comm]
  | cons t log ih =>
    obtain ⟨ht,hlog⟩ := pairwise_cons.mp h
    cases k with
    | zero => simp
    | succ k =>
      by_cases hc : c < t
      · simp [since_cons_of_lt hc,ih hlog,hc]
      · have hnil : since c (t::log) = [] :=
          since_eq_nil (forall_mem_cons.mpr ⟨not_lt.mp hc,fun s hs => (ht s hs).trans (not_lt.mp hc)⟩)
        simp [hnil,hc]

theorem le_length_since_iff (h : log.Pairwise (· ≥ ·)) (hec : e ≤ c) :
    k ≤ (since c log).length ↔ k ≤ (kept k e log).length ∧ ∀ t ∈ (kept k e log).getLast?, c < t := by
  have hsorted : (since e log).Pairwise (· ≥ ·) := h.filter _
  rw [← since_since hec,le_length_since hsorted]
  change (kept k e log).length = k ∧ (∀ t ∈ kept k e log, c < t) ↔ _
  have hlen : (kept k e log).length ≤ k := length_take_le _ _
  constructor
  · rintro ⟨hfull,hall⟩
    exact ⟨hfull.ge,fun t ht => hall t (mem_of_getLast? ht)⟩
  · rintro ⟨hfull,hlast⟩
    refine ⟨le_antisymm hlen hfull,fun t ht => ?_⟩
    have hne : kept k e log ≠ [] := ne_nil_of_mem ht
    have hmin : (kept k e log).getLast hne ≤ t := by
      have hkept : (kept k e log).Pairwise (· ≥ ·) := hsorted.sublist (take_sublist _ _)
      exact hkept.rel_getLast ht
    exact (hlast _ (getLast?_eq_some_getLast hne)).trans_le hmin

end Order

/-! Any window. -/

section Windows
variable {T : Type*} [LinearOrder T] [Sub T]

inductive Paced (limit : ℕ) (window : T) : List T → Prop
  | nil : Paced limit window []
  | cons {t : T} {log : List T} (h : Paced limit window log) (hlast : ∀ s ∈ log, s ≤ t)
      (hroom : (since (t-window) log).length < limit) : Paced limit window (t::log)

lemma Paced.sorted {log : List T} (h : Paced limit window log) : log.Pairwise (· ≥ ·) := by
  induction h with
  | nil => exact List.Pairwise.nil
  | cons _ hlast _ ih => exact List.Pairwise.cons hlast ih

theorem Paced.length_filter_le (h : Paced limit window log) {p : T → Bool}
    (hp : ∀ s t, p s → p t → s ≤ t → t-window < s) : (log.filter p).length ≤ limit := by
  induction h with
  | nil => exact Nat.zero_le _
  | @cons t log h hlast hroom ih =>
    by_cases ht : p t
    · have hsub : ∀ s ∈ log, p s → decide (t-window < s) := fun s hs hps =>
        decide_eq_true (hp s t hps ht (hlast s hs))
      have hle : (log.filter p).length ≤ (since (t-window) log).length := by
        rw [since,← countP_eq_length_filter,← countP_eq_length_filter]
        exact countP_mono_left hsub
      rw [filter_cons_of_pos ht,length_cons]
      omega
    · rw [filter_cons_of_neg ht]
      exact ih

end Windows

/-! A memory of the newest. -/

section Memory
variable {T : Type*} [LinearOrder T] [AddCommGroup T] [IsOrderedAddMonoid T]

structure Remembers (k : ℕ) (duration : T) (items log : List T) (t : T) : Prop where
  sorted : log.Pairwise (· ≥ ·)
  past : ∀ s ∈ log, s ≤ t
  sub : ∀ s ∈ items, s ∈ log
  short : items.length ≤ k
  newest : 0 < duration → ∃ e ≤ t-duration, items = kept k e log

variable {k : ℕ} {duration t : T} {items log : List T}

omit [IsOrderedAddMonoid T] in
lemma remembers_nil (k : ℕ) (duration t : T) : Remembers k duration [] [] t :=
  ⟨.nil,by simp,by simp,by simp,fun _ => ⟨_,le_refl _,by simp [kept]⟩⟩

section
variable (h : Remembers k duration items log t)
include h

lemma Remembers.later (ht : t ≤ t') : Remembers k duration items log t' := by
  refine ⟨h.sorted,fun s hs => (h.past s hs).trans ht,h.sub,h.short,fun hpos => ?_⟩
  obtain ⟨e,he,heq⟩ := h.newest hpos
  exact ⟨e,he.trans (sub_le_sub_right ht _),heq⟩

lemma Remembers.record : Remembers k duration ((t::items).take k) (t::log) t := by
  refine ⟨.cons h.past h.sorted,forall_mem_cons.mpr ⟨le_refl _,h.past⟩,fun s hs => ?_,length_take_le _ _,fun hpos => ?_⟩
  · rcases mem_cons.mp (mem_of_mem_take hs) with rfl | hs
    · exact mem_cons_self
    · exact mem_cons_of_mem _ (h.sub s hs)
  · obtain ⟨e,he,heq⟩ := h.newest hpos
    exact ⟨e,he,by rw [heq,kept_cons (he.trans_lt (sub_lt_self t hpos))]⟩

omit [IsOrderedAddMonoid T] in
lemma Remembers.forget (hold : ∀ s ∈ log, s ≤ t-duration) : Remembers k duration [] log t :=
  ⟨h.sorted,h.past,by simp,Nat.zero_le _,fun _ => ⟨_,le_refl _,by rw [kept,since_eq_nil hold,take_nil]⟩⟩

lemma Remembers.old_of_newest (hk : 0 < k)
    (hnewe : ∀ s ∈ items.head?, s ≤ t-duration) : ∀ s ∈ log, s ≤ t-duration := by
  intro s hs
  rcases le_or_gt duration 0 with hneg | hpos
  · exact (h.past s hs).trans (le_sub_self_iff t |>.mpr hneg)
  · obtain ⟨e,he,rfl⟩ := h.newest hpos
    rcases le_or_gt s e with hse | hes
    · exact hse.trans he
    · have hmem : s ∈ since e log := mem_since.mpr ⟨hs,hes⟩
      have hsorted : (since e log).Pairwise (· ≥ ·) := h.sorted.filter _
      have hle := hsorted.rel_head hmem
      refine hle.trans (hnewe _ ?_)
      rw [kept,head?_take,if_neg hk.ne',Option.mem_def,head?_eq_some_head]

theorem Remembers.full_iff (hk : 0 < k) :
    k ≤ (since (t-duration) log).length ↔ k ≤ items.length ∧ ∀ s ∈ items.getLast?, t-duration < s := by
  rcases lt_or_ge 0 duration with hpos | hneg
  · obtain ⟨e,he,rfl⟩ := h.newest hpos
    exact le_length_since_iff h.sorted he
  · have hle : t ≤ t-duration := le_sub_self_iff t |>.mpr hneg
    rw [since_eq_nil fun s hs => (h.past s hs).trans hle]
    refine ⟨fun hzero => absurd hzero (Nat.not_le.mpr hk),fun ⟨hlen,hlast⟩ => ?_⟩
    have hne : items ≠ [] := ne_nil_of_length_pos (hk.trans_le hlen)
    have hsome := getLast?_eq_some_getLast hne
    have hmem := h.past _ (h.sub _ (getLast_mem hne))
    exact absurd (hlast _ hsome) (not_lt.mpr (hmem.trans hle))

end

end Memory

end LurusHub.SlidingWindow
