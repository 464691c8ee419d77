import Mathlib.Data.List.Basic

/-! Dropping positions of a list. Kept positions close up, so an entry by position has to move with
its element; a table left as it is serves them only as far as nothing before was dropped. -/
namespace LurusHub.Compaction
open List

variable {α : Type*} (kept : ℕ → Bool)

/-- The old positions below `n` that are kept; the new position of each is its place here. -/
def positions (n : ℕ) : List ℕ := (List.range n).filter kept

lemma positions_succ : positions kept (n+1) = positions kept n++if kept n then [n] else [] := by
  simp [positions,range_succ,filter_singleton]

lemma length_positions_succ :
    (positions kept (n+1)).length = (positions kept n).length+if kept n then 1 else 0 := by
  rw [positions_succ,length_append]
  split <;> rfl

variable {n p j : ℕ}

lemma length_positions_mono (h : m ≤ n) : (positions kept m).length ≤ (positions kept n).length :=
  ((range_sublist.mpr h).filter kept).length_le

lemma length_positions_le (n : ℕ) : (positions kept n).length ≤ n := by
  simpa [positions] using length_filter_le kept (range n)

lemma getElem?_positions :
    (positions kept n)[p]? = some j ↔ j < n ∧ kept j = true ∧ (positions kept j).length = p := by
  induction n with
  | zero => simp [positions]
  | succ n ih =>
    rw [positions_succ]
    rcases Nat.lt_or_ge p (positions kept n).length with hp | hp
    · rw [getElem?_append_left hp,ih]
      constructor
      · rintro ⟨hj,hrest⟩
        exact ⟨by omega,hrest⟩
      · rintro ⟨hj,hkept,hlen⟩
        have hne : j ≠ n := by
          rintro rfl
          omega
        exact ⟨by omega,hkept,hlen⟩
    · rw [getElem?_append_right hp]
      constructor
      · intro h
        split at h
        · next hkept =>
          obtain ⟨hzero,hj⟩ := List.getElem?_eq_some_iff.mp h
          rw [List.length_singleton] at hzero
          rw [List.getElem_singleton] at hj
          subst hj
          exact ⟨by omega,hkept,by omega⟩
        · cases h
      · rintro ⟨hj,hkept,hlen⟩
        -- a kept position before n has its place among the first ones
        have hn : j = n := by
          by_contra hne
          have hmono := length_positions_mono kept (show j+1 ≤ n by omega)
          rw [length_positions_succ,hkept] at hmono
          simp only [if_true] at hmono
          omega
        subst hn
        simp [hkept,hlen]

lemma exists_dropped (hlen : (positions kept n).length ≤ p) (hp : p < n) : ∃ j ≤ p, kept j = false := by
  by_contra hall
  push Not at hall
  have hfull : positions kept (p+1) = range (p+1) := by
    refine filter_eq_self.mpr fun j hj => ?_
    simpa using hall j (by simpa [Nat.lt_succ_iff] using hj)
  have hmono := length_positions_mono kept (show p+1 ≤ n by omega)
  rw [hfull,length_range] at hmono
  omega

lemma length_positions_lt (hj : j < n) (hdro : kept j = false) : (positions kept n).length < n := by
  have hlt : (positions kept n).length < (range n).length :=
    length_filter_lt_length_iff_exists.mpr ⟨j,mem_range.mpr hj,by simp [hdro]⟩
  simpa using hlt

lemma lt_of_dropped {k : ℕ} (hk : (positions kept n)[p]? = some k) (hj : j ≤ p) (hdro : kept j = false) :
    p < k := by
  obtain ⟨-,hkept,hlen⟩ := (getElem?_positions kept).mp hk
  have hle := length_positions_le kept k
  rcases Nat.lt_or_ge j k with hjk | hjk
  · have hlt := length_positions_lt kept hjk hdro
    omega
  · have hjk' : j = k := by omega
    rw [hjk',hkept] at hdro
    cases hdro

theorem unmoved_iff {c : ℕ → Option α} (hc : ∀ idx, n ≤ idx → c idx = none) :
    ((∀ p j, (positions kept n)[p]? = some j → c p = c j) ∧ ∀ p, (positions kept n).length ≤ p → c p = none) ↔
      ∀ j < n, kept j = false → ∀ idx, j ≤ idx → c idx = none := by
  constructor
  · rintro ⟨hmov,hpast⟩ j hj hdro idx hidx
    -- each entry is copied from a later one, and there is none past the end
    induction hm : n-idx using Nat.strongRecOn generalizing idx with
    | ind m ih =>
      cases hk : (positions kept n)[idx]? with
      | none => exact hpast idx (getElem?_eq_none_iff.mp hk)
      | some k =>
        have hlt := lt_of_dropped kept hk hidx hdro
        have hkn := ((getElem?_positions kept).mp hk).1
        rw [hmov idx k hk]
        exact ih (n-k) (by omega) k (by omega) rfl
  · intro hnone
    constructor
    · intro p k hk
      obtain ⟨hkn,-,hlen⟩ := (getElem?_positions kept).mp hk
      have hle := length_positions_le kept k
      rcases Nat.lt_or_ge p k with hpk | hpk
      · obtain ⟨j,hj,hdro⟩ := exists_dropped kept (Nat.le_of_eq hlen) hpk
        have hnone := hnone j (by omega) hdro
        rw [hnone p hj,hnone k (by omega)]
      · have hpk' : p = k := by omega
        rw [hpk']
    · intro p hp
      rcases Nat.lt_or_ge p n with hpn | hpn
      · obtain ⟨j,hj,hdro⟩ := exists_dropped kept hp hpn
        exact hnone j (by omega) hdro p hj
      · exact hc p hpn

end LurusHub.Compaction
