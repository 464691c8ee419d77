import Mathlib.Algebra.Order.Floor.Ring
import Mathlib.Tactic.Ring

/-! Decimal amounts over an ordered field, exact but for three roundings: to a whole number, in a
division, and when narrowed to a machine word. A half goes away from zero. -/
namespace LurusHub.Decimal
open Int64

section words
variable {K : Type*} [Ring K]

def ofInt64 (n : Int64) : K := (n.toInt : K)

@[simp] lemma ofInt64_zero : (ofInt64 0 : K) = 0 := by simp [ofInt64]

theorem ofInt64_sub_sub (hlo : -2^63 ≤ a.toInt-b.toInt-c.toInt) (hhi : a.toInt-b.toInt-c.toInt < 2^63) :
    (ofInt64 (a-b-c) : K) = ofInt64 a-ofInt64 b-ofInt64 c := by
  have hwrap : (a-b-c).toInt = (a.toInt-b.toInt-c.toInt).bmod (2^64) := by
    rw [toInt_sub,toInt_sub,Int.bmod_sub_bmod]
  have hfits : (a-b-c).toInt = a.toInt-b.toInt-c.toInt := by
    rw [hwrap]
    exact Int.bmod_eq_of_le (by omega) (by omega)
  simp [ofInt64,hfits]

end words

section rounding
variable {K : Type*} [Field K] [LinearOrder K] [IsStrictOrderedRing K] [FloorRing K]

/-- The nearest whole number, a half going away from zero. -/
def roundHalfAway (x : K) : ℤ := if 0 ≤ x then ⌊x+1/2⌋ else ⌈x-1/2⌉

/-- A quotient kept to the given number of decimal places. -/
def divRound (places : ℕ) (x y : K) : K := roundHalfAway (x/y*10^places)/10^places

/-- The low 64 bits of the rounded amount, read in two's complement. -/
def intPart (x : K) : Int64 := Int64.ofInt (roundHalfAway x)

lemma roundHalfAway_intCast (n : ℤ) : roundHalfAway (n : K) = n := by
  unfold roundHalfAway
  split
  · rw [Int.floor_eq_iff]
    constructor <;> linarith
  · rw [Int.ceil_eq_iff]
    constructor <;> linarith

lemma abs_roundHalfAway_sub_le (x : K) : |(roundHalfAway x : K)-x|≤1/2 := by
  unfold roundHalfAway
  rw [abs_le]
  split
  · have hlo := Int.lt_floor_add_one (x+1/2)
    have hhi := Int.floor_le (x+1/2)
    constructor <;> linarith
  · have hlo := Int.le_ceil (x-1/2)
    have hhi := Int.ceil_lt_add_one (x-1/2)
    constructor <;> linarith

@[simp] lemma intPart_zero : intPart (0 : K) = 0 := by
  have h := roundHalfAway_intCast (K:=K) 0
  rw [Int.cast_zero] at h
  simp [intPart,h]

@[simp] lemma intPart_one : intPart (1 : K) = 1 := by
  have h := roundHalfAway_intCast (K:=K) 1
  rw [Int.cast_one] at h
  simp [intPart,h]

/-- A positive amount that is rounded to a multiple of `2^64`. -/
def Vanishes (x : K) : Prop := 0 < x ∧ ∃ k : ℤ, k*2^64 ≤ x+1/2 ∧ x+1/2 < k*2^64+1

omit [IsStrictOrderedRing K] in
lemma vanishes_iff (x : K) : Vanishes x ↔ 0 < x ∧ (2^64 : ℤ) ∣ ⌊x+1/2⌋ := by
  have hfloor (k : ℤ) : k*2^64 ≤ x+1/2 ∧ x+1/2 < k*2^64+1 ↔ ⌊x+1/2⌋=2^64*k := by
    rw [Int.floor_eq_iff,mul_comm]
    norm_num
  simp only [Vanishes,hfloor]
  rfl

instance (x : K) : Decidable (Vanishes x) := decidable_of_iff _ (vanishes_iff x).symm

omit [IsStrictOrderedRing K] in
lemma intPart_eq_zero_iff {x : K} (hx : 0 < x) : intPart x = 0 ↔ Vanishes x := by
  rw [vanishes_iff,intPart,roundHalfAway,if_pos hx.le,← toInt_inj,toInt_ofInt,toInt_zero,← Int.dvd_iff_bmod_eq_zero]
  simp [hx]

/-- The word of the amount has its sign bit clear. -/
def NonnegWord (x : K) : Prop := ∃ k : ℤ, k*2^64 ≤ x+1/2 ∧ x+1/2 < k*2^64+2^63

omit [IsStrictOrderedRing K] in
lemma nonnegWord_iff (x : K) : NonnegWord x ↔ ⌊x+1/2⌋%2^64 < 2^63 := by
  have hlow (k : ℤ) : k*2^64 ≤ x+1/2 ↔ k*2^64≤⌊x+1/2⌋ := by
    rw [Int.le_floor]
    norm_num
  have hhigh (k : ℤ) : x+1/2 < k*2^64+2^63 ↔ ⌊x+1/2⌋<k*2^64+2^63 := by
    rw [Int.floor_lt]
    norm_num
  simp only [NonnegWord,hlow,hhigh]
  constructor
  · rintro ⟨k,hk⟩
    omega
  · intro h
    exact ⟨⌊x+1/2⌋/2^64,by omega,by omega⟩

instance (x : K) : Decidable (NonnegWord x) := decidable_of_iff _ (nonnegWord_iff x).symm

omit [IsStrictOrderedRing K] in
lemma intPart_nonneg (x : K) : 0 ≤ intPart x ↔ roundHalfAway x%2^64 < 2^63 := by
  rw [intPart,le_iff_toInt_le,toInt_ofInt]
  have hsize : size = 2^64 := rfl
  rw [Int.bmod_eq_emod,toInt_zero,hsize]
  split <;> omega

omit [IsStrictOrderedRing K] in
lemma intPart_nonneg_iff {x : K} (hx : 0 ≤ x) : 0 ≤ intPart x ↔ NonnegWord x := by
  rw [intPart_nonneg,nonnegWord_iff,roundHalfAway,if_pos hx]

/-- An amount that is no credit and fits a word. -/
def Payable (x : K) : Prop := -1/2 < x ∧ x < 2^63-1/2

theorem intPart_nonneg_iff_payable {x : K} (hlo : -2^63 ≤ x) (hhi : x < 2^64-1/2) : 0 ≤ intPart x ↔ Payable x := by
  rw [intPart_nonneg,Payable,roundHalfAway]
  split
  · next hx =>
    have hge : 0≤⌊x+1/2⌋ := Int.floor_nonneg.mpr (by linarith)
    have hlt : ⌊x+1/2⌋<2^64 := Int.floor_lt.mpr (by push_cast; linarith)
    have hfits : x < 2^63-1/2 ↔ ⌊x+1/2⌋<2^63 := by
      rw [Int.floor_lt]
      push_cast
      constructor <;> intro h <;> linarith
    rw [hfits,and_iff_right (by linarith)]
    omega
  · next hx =>
    have hle : ⌈x-1/2⌉≤0 := Int.ceil_le.mpr (by push_cast; linarith)
    have hge : -2^63-1<⌈x-1/2⌉ := Int.lt_ceil.mpr (by push_cast; linarith)
    have hcredit : -1/2 < x ↔ -1<⌈x-1/2⌉ := by
      rw [Int.lt_ceil]
      push_cast
      constructor <;> intro h <;> linarith
    rw [hcredit,and_iff_left (by linarith)]
    omega

lemma Payable.intPart_nonneg {x : K} (h : Payable x) : 0 ≤ intPart x := by
  have hlo := h.1
  have hhi := h.2
  exact (intPart_nonneg_iff_payable (by linarith) (by linarith)).mpr h

lemma toInt_intPart {x : K} (hx : 0 ≤ x) (hhi : x < 2^63-1/2) : (intPart x).toInt = roundHalfAway x := by
  have hge : 0≤⌊x+1/2⌋ := Int.floor_nonneg.mpr (by linarith)
  have hlt : ⌊x+1/2⌋<2^63 := Int.floor_lt.mpr (by push_cast; linarith)
  rw [intPart,roundHalfAway,if_pos hx,toInt_ofInt]
  exact Int.bmod_eq_of_le (by omega) (by simp only [size]; omega)

lemma intPart_nonneg_iff_lt {x : K} (hx : 0 ≤ x) (hhi : x < 2^64-1/2) : 0 ≤ intPart x ↔ x < 2^63-1/2 := by
  rw [intPart_nonneg_iff_payable (by linarith) hhi]
  exact and_iff_right (by linarith)

end rounding

end LurusHub.Decimal
