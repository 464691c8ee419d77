import LurusHub.ChannelCache
import Mathlib.Algebra.Order.BigOperators.Group.Finset
import Mathlib.Data.Rat.Floor

/-! The weighted draw within one priority tier, by the channels' weights or those the hub's scores
make of them, smoothed when small. A scored channel never has weight zero, which a tier without
weights runs into. -/
namespace LurusHub.ChannelDraw
open ChannelCache WeightedDraw

structure Factor where
  value : ℚ
  low : 1/2 ≤ value
  high : value ≤ 3/2

/-- The product is cut off to a word; one that is too large comes out as the least word. -/
def hubScores (factors : ℤ → Option Factor) : Scores := fun id =>
  (factors id).map fun factor weight =>
    let w := (weight.toInt : ℚ)*factor.value
    if w < 2^63 then .ofInt (if w < 0 then ⌈w⌉ else ⌊w⌋) else .minValue

/-- How many random values there are. -/
def range (scores : Scores) (targetChannels : List Channel) : ℕ :=
  (smoothing (targetChannels.map (weightOf scores))).totalWeight.toInt.toNat

def drawsOf (scores : Scores) (channels : List Channel) (retry : ℕ) (c : Channel) : ℕ :=
  Nat.count (fun r => drawFrom scores channels retry r = .ok (some c)) (range scores (tier channels retry))

structure NoneStarves (scores : Scores) (channels : List Channel) (retry : ℕ) : Prop where
  drawn : ∀ r < range scores (tier channels retry),
    ∃ c ∈ tier channels retry, drawFrom scores channels retry r = .ok (some c)
  share : ∀ c ∈ tier channels retry,
    drawsOf scores channels retry c = (tier channels retry).count c*effectiveWeight scores (tier channels retry) c
  chance : ∀ c ∈ tier channels retry, (0 < c.getWeight ∨ ∀ d ∈ tier channels retry, d.getWeight = 0) →
    0 < drawsOf scores channels retry c

section
variable {scores : Scores} {channels : List Channel} {retry : ℕ}

lemma NoneStarves.fits (h : NoneStarves scores channels retry) : Fits scores (tier channels retry) := by
  set drawn := fun c => (Finset.range (range scores (tier channels retry))).filter
    fun r => drawFrom scores channels retry r = .ok (some c) with hdrawn
  have hcard : ∀ c ∈ (tier channels retry).toFinset,
      (tier channels retry).count c•effectiveWeight scores (tier channels retry) c = (drawn c).card := by
    intro c hc
    rw [nsmul_eq_mul,Nat.cast_id,← h.share c (List.mem_toFinset.mp hc),drawsOf,Nat.count_eq_card_filter_range]
  have hdisjoint : (((tier channels retry).toFinset : Set Channel)).PairwiseDisjoint drawn := by
    intro c _ d _ hne
    refine Finset.disjoint_left.mpr fun r hc hd => hne ?_
    have hsame := (Finset.mem_filter.mp hc).2.symm.trans (Finset.mem_filter.mp hd).2
    simpa using hsame
  have hall : ((tier channels retry).toFinset.biUnion drawn).card ≤ range scores (tier channels retry) := by
    refine (Finset.card_le_card (Finset.biUnion_subset.mpr fun c _ => Finset.filter_subset _ _)).trans ?_
    rw [Finset.card_range]
  rw [Fits,total,exactItems,List.map_map]
  refine lt_of_le_of_lt ?_ (show range scores (tier channels retry) < 2^63 from ?_)
  · rw [Finset.card_biUnion hdisjoint] at hall
    refine le_trans (le_of_eq ?_) hall
    rw [← Finset.sum_congr rfl hcard,← Finset.sum_list_map_count]
    rfl
  · have hlt := Int64.toInt_lt (smoothing ((tier channels retry).map (weightOf scores))).totalWeight
    unfold range
    omega

lemma range_of_fits (hfit : Fits scores (tier channels retry)) :
    range scores (tier channels retry) = total (exactItems scores (tier channels retry)) := by
  rw [range,smoothing_tier hfit,Int64.toInt_ofNat_of_lt hfit,Int.toNat_natCast]

lemma drawFrom_ok_iff (h : channels ≠ []) (hfit : Fits scores (tier channels retry))
    (hr : r < total (exactItems scores (tier channels retry))) (c : Channel) :
    drawFrom scores channels retry r = .ok (some c) ↔ pick (exactItems scores (tier channels retry)) r = some c := by
  rw [drawFrom_eq h hfit r,Nat.mod_eq_of_lt hr]
  cases pick (exactItems scores (tier channels retry)) r <;> simp

lemma drawsOf_eq (h : channels ≠ []) (hfit : Fits scores (tier channels retry)) (c : Channel) :
    drawsOf scores channels retry c = (tier channels retry).count c*effectiveWeight scores (tier channels retry) c := by
  have hcount : drawsOf scores channels retry c =
      Nat.count (fun r => pick (exactItems scores (tier channels retry)) r = some c)
        (total (exactItems scores (tier channels retry))) := by
    rw [drawsOf,range_of_fits hfit]
    refine le_antisymm (Nat.count_mono_left fun r hr => ?_) (Nat.count_mono_left fun r hr => ?_)
    · exact (drawFrom_ok_iff h hfit hr c).mp
    · exact (drawFrom_ok_iff h hfit hr c).mpr
  rw [hcount,count_pick,exactItems,share_map]

lemma drawsOf_pos (h : channels ≠ []) (hfit : Fits scores (tier channels retry)) (hc : c ∈ tier channels retry) :
    0 < drawsOf scores channels retry c ↔ weightOf scores c ≠ 0 ∨ ∀ d ∈ tier channels retry, weightOf scores d = 0 := by
  rw [drawsOf_eq h hfit,Nat.mul_pos_iff_of_pos_left (List.count_pos_iff.mpr hc),effectiveWeight_pos]

lemma weightOf_eq_zero (scores : Scores) (c : Channel) :
    weightOf scores c = 0 ↔ scores c.id = none ∧ c.getWeight = 0 := by
  unfold weightOf
  split
  · next hnone => simp [hnone]
  · next scale hsome =>
    refine iff_of_false (fun hzero => ?_) (by simp [hsome])
    split_ifs at hzero with hlow
    · exact absurd hzero (by decide)
    · rw [hzero] at hlow
      exact hlow (by decide)

/-- Channels starve if the weights pass a word, or are zero and only a part is scored. -/
theorem draw_noneStarves_iff (h : channels ≠ []) : NoneStarves scores channels retry ↔
    Fits scores (tier channels retry) ∧ ¬((∀ d ∈ tier channels retry, d.getWeight = 0) ∧
      (∃ d ∈ tier channels retry, scores d.id ≠ none) ∧ ∃ d ∈ tier channels retry, scores d.id = none) := by
  constructor
  · intro hnone
    refine ⟨hnone.fits,?_⟩
    rintro ⟨hwei,⟨d,hd,hscored⟩,e,he,hunscored⟩
    rcases (drawsOf_pos h hnone.fits he).mp (hnone.chance e he (.inr hwei)) with hpos | hall
    · exact hpos ((weightOf_eq_zero scores e).mpr ⟨hunscored,hwei e he⟩)
    · exact hscored ((weightOf_eq_zero scores d).mp (hall d hd)).1
  · rintro ⟨hfit,hmix⟩
    refine ⟨fun r hr => ?_,fun c _ => drawsOf_eq h hfit c,fun c hc hcase => ?_⟩
    · rw [range_of_fits hfit] at hr
      obtain ⟨c,hc⟩ := Option.ne_none_iff_exists'.mp (pick_ne_none hr)
      have hdraw := (drawFrom_ok_iff h hfit hr c).mpr hc
      exact ⟨c,mem_of_drawFrom hdraw,hdraw⟩
    · rw [drawsOf_pos h hfit hc]
      by_contra hno
      obtain ⟨hzero,hsome⟩ : weightOf scores c = 0 ∧ ∃ d ∈ tier channels retry, weightOf scores d ≠ 0 := by
        simpa [not_or] using hno
      obtain ⟨hunscored,hweight⟩ := (weightOf_eq_zero scores c).mp hzero
      have hwei : ∀ d ∈ tier channels retry, d.getWeight = 0 := by
        rcases hcase with hpos | hall
        · rw [hweight] at hpos
          exact absurd hpos (by decide)
        · exact hall
      obtain ⟨d,hd,hdpos⟩ := hsome
      refine hmix ⟨hwei,⟨d,hd,fun hnone => hdpos ?_⟩,c,hc,hunscored⟩
      exact (weightOf_eq_zero scores d).mpr ⟨hnone,hwei d hd⟩

end

def seen : Channel where
  id := 1
  models := ["gpt-4"]
  group := ["default"]

def unseen : Channel := { seen with id := 2 }

def averageSeen (id : ℤ) : Option Factor := if id = 1 then some ⟨1,by norm_num,by norm_num⟩ else none

theorem draw_starves_unseen : ¬NoneStarves (hubScores averageSeen) [seen,unseen] 0 ∧
    ¬NoneStarves (fun _ => none) [{ seen with weight := some 4611686018427387904 },
    { unseen with weight := some 4611686018427387904 }] 0 := by
  rw [draw_noneStarves_iff (by simp),draw_noneStarves_iff (by simp)]
  refine ⟨fun h => h.2 ⟨by decide,⟨seen,by decide,?_⟩,unseen,by decide,rfl⟩,fun h => ?_⟩
  · simp [hubScores,averageSeen,seen]
  · exact absurd h.1 (by decide +kernel)

def weighted : Channel := { seen with weight := some 5 }

theorem draw_noneStarves_weighted : [weighted,unseen] ≠ [] ∧ NoneStarves (hubScores averageSeen) [weighted,unseen] 0 :=
  ⟨by simp,(draw_noneStarves_iff (by simp)).mpr
    ⟨by decide +kernel,fun h => absurd (h.1 weighted (by decide)) (by decide)⟩⟩

end LurusHub.ChannelDraw
