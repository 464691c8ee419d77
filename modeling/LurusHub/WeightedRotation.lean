import LurusHub.KeyedTotals
import LurusHub.SmoothRotation

/-! The weighted rotation of a channel's keys as the source keeps it: one loop over the candidates
raises a map of accumulated weights while it looks for the highest, and keys that left the rotation
are deleted. Its turns are those of a smooth rotation. -/
namespace LurusHub.WeightedRotation
open SmoothRotation KeyedTable List Function

abbrev Cursor := KeyedTable (ℤ × ℤ) ℤ Prod.fst

/-- A missing entry reads as zero. -/
def accumulated (cur : Cursor) (i : ℤ) : ℤ := ((cur.get? i).map Prod.snd).getD 0

/-- `weightedCursor.state`. -/
abbrev WeightedCursor := ℤ → Option Cursor

structure Scan where
  cur : Cursor
  live : List ℤ := []
  total : ℤ := 0
  best : ℤ := 0
  found : Bool := false

def Scan.step (weight : ℤ → ℤ) (a : Scan) (i : ℤ) : Scan :=
  if weight i ≤ 0 then a
  else
    let cur := a.cur.put (i,accumulated a.cur i+weight i)
    let better := a.found = false ∨ accumulated cur a.best < accumulated cur i
    { cur
      live := i::a.live
      total := a.total+weight i
      best := if better then i else a.best
      found := true }

def cursorOf (state : WeightedCursor) (channelID : ℤ) : Cursor := (state channelID).getD .empty

def Scan.kept (a : Scan) : Cursor := a.cur.deleteWhere fun row => row.1 ∉ a.live

def nextWeighted (state : WeightedCursor) (channelID : ℤ) (candidates : List ℤ) (weight : ℤ → ℤ) :
    WeightedCursor × Option ℤ :=
  let a := candidates.foldl (Scan.step weight) { cur := cursorOf state channelID }
  if a.found then
    (Function.update state channelID (some (a.kept.put (a.best,accumulated a.kept a.best-a.total))),some a.best)
  else (Function.update state channelID (some a.kept),none)

def resetWeightedCursor (state : WeightedCursor) (channelID : ℤ) : WeightedCursor := Function.update state channelID none

/-! What the loop computes. -/

lemma accumulated_put : accumulated (cur.put (i,v)) j = if j = i then v else accumulated cur j := by
  rw [accumulated,get?_put]
  split <;> rfl

lemma accumulated_deleteWhere (q : ℤ → Bool) (hp : ∀ row, p row = q row.1) :
    accumulated (cur.deleteWhere p) j = if q j then 0 else accumulated cur j := by
  rw [accumulated,get?_deleteWhere,accumulated]
  cases h : cur.get? j with
  | none => simp
  | some row =>
    have hkey : row.1 = j := key_of_get? h
    cases hq : q j <;> simp [Option.filter,hp,hkey,hq]

lemma total_eq_sum (h : ∀ row ∈ cur.rows, row.1 ∈ s) :
    cur.total Prod.snd = ∑ i ∈ s, accumulated cur i := by
  have hread : ∀ row ∈ cur.rows, row.2 = accumulated cur row.1 := by
    intro row hrow
    have hget : cur.get? row.1 = some row := get?_of_mem hrow
    simp [accumulated,hget]
  have hkeys : (cur.rows.map Prod.fst).toFinset ⊆ s := by
    intro i hi
    obtain ⟨row,hrow,rfl⟩ := mem_map.mp (mem_toFinset.mp hi)
    exact h row hrow
  have hmissing : ∀ i ∈ s, i ∉ (cur.rows.map Prod.fst).toFinset → accumulated cur i = 0 := by
    intro i _ hi
    have hnone : cur.get? i = none := by
      rw [get?_eq_none]
      intro row hrow hkey
      exact hi (mem_toFinset.mpr (mem_map.mpr ⟨row,hrow,hkey⟩))
    simp [accumulated,hnone]
  rw [← Finset.sum_subset hkeys hmissing,sum_toFinset _ cur.unique,map_map,total,map_congr_left hread]
  rfl

def higher (raised : ℤ → ℤ) (best : Option ℤ) (i : ℤ) : Option ℤ :=
  match best with
  | none => some i
  | some b => if raised b < raised i then some i else some b

structure Scanned (weight : ℤ → ℤ) (cur : Cursor) (done : List ℤ) (a : Scan) : Prop where
  live : ∀ i, i ∈ a.live ↔ i ∈ done ∧ 0 < weight i
  value : ∀ i, accumulated a.cur i = if i ∈ done ∧ 0 < weight i then accumulated cur i+weight i else accumulated cur i
  total : a.total = ((done.filter fun i => 0 < weight i).map weight).sum
  best : (if a.found then some a.best else none) =
    (done.filter fun i => 0 < weight i).foldl (higher fun i => accumulated cur i+weight i) none

lemma higher_mem {l : List ℤ} (h : l.foldl (higher raised) o = some b) : o = some b ∨ b ∈ l := by
  induction l generalizing o with
  | nil => exact .inl h
  | cons i l ih =>
    rcases ih h with hhead | hmem
    · cases o with
      | none => exact .inr (by simp_all [higher])
      | some c =>
        rw [higher] at hhead
        split at hhead
        · exact .inr (by simp_all)
        · exact .inl hhead
    · exact .inr (mem_cons_of_mem i hmem)

lemma higher_le {l : List ℤ} (h : l.foldl (higher raised) o = some b) :
    (∀ c, o = some c → raised c ≤ raised b) ∧ ∀ i ∈ l, raised i ≤ raised b := by
  induction l generalizing o with
  | nil =>
    refine ⟨?_,by simp⟩
    rintro c rfl
    cases h
    exact le_rfl
  | cons i l ih =>
    obtain ⟨hhead,htail⟩ := ih h
    have hi : raised i ≤ raised b ∧ ∀ c, o = some c → raised c ≤ raised b := by
      cases o with
      | none => exact ⟨hhead i rfl,nofun⟩
      | some c =>
        by_cases hlt : raised c < raised i
        · have hle := hhead i (if_pos hlt)
          refine ⟨hle,?_⟩
          rintro d ⟨⟩
          omega
        · have hle := hhead c (if_neg hlt)
          refine ⟨by omega,?_⟩
          rintro d ⟨⟩
          exact hle
    exact ⟨hi.2,forall_mem_cons.mpr ⟨hi.1,htail⟩⟩

lemma higher_isSome (raised : ℤ → ℤ) (h : o.isSome ∨ l ≠ []) : (l.foldl (higher raised) o).isSome := by
  induction l generalizing o with
  | nil => simpa using h
  | cons i l ih =>
    refine ih (.inl ?_)
    cases o with
    | none => rfl
    | some c =>
      rw [higher]
      split <;> rfl

lemma Scanned.step (h : Scanned weight cur done a)
    (hi : i ∉ done) : Scanned weight cur (done++[i]) (a.step weight i) := by
  by_cases hw : weight i ≤ 0
  · have hnot : ¬0 < weight i := by omega
    have hfilter : (done++[i]).filter (fun i => 0 < weight i) = done.filter fun i => 0 < weight i := by
      simp [hnot]
    have hdone : ∀ j, (j ∈ done++[i] ∧ 0 < weight j) ↔ j ∈ done ∧ 0 < weight j := by
      intro j
      by_cases hj : j = i <;> simp [hj,hnot]
    rw [Scan.step,if_pos hw]
    exact ⟨fun j => (h.live j).trans (hdone j).symm,fun j => by simp only [hdone,h.value],
      by rw [hfilter,h.total],by rw [hfilter,h.best]⟩
  · have hpos : 0 < weight i := by omega
    have hread : accumulated a.cur i = accumulated cur i := by simp [h.value,hi]
    have hfilter : (done++[i]).filter (fun i => 0 < weight i) = (done.filter fun i => 0 < weight i)++[i] := by
      simp [hpos]
    have hvalue : ∀ j, accumulated (a.cur.put (i,accumulated a.cur i+weight i)) j =
        if j ∈ done++[i] ∧ 0 < weight j then accumulated cur j+weight j else accumulated cur j := by
      intro j
      rw [accumulated_put,h.value j,hread]
      by_cases hj : j = i <;> simp [hj,hpos]
    rw [Scan.step,if_neg hw]
    refine ⟨fun j => ?_,hvalue,?_,?_⟩
    · by_cases hj : j = i <;> simp [hj,h.live,hpos]
    · simp [hfilter,h.total]
    · rw [hfilter,foldl_append,← h.best]
      cases hfound : a.found with
      | false => simp [higher]
      | true =>
        -- the best so far is a candidate of before, so its entry is raised already
        have hbest : a.best ∈ done ∧ 0 < weight a.best := by
          have hmem := h.best
          rw [hfound] at hmem
          rcases higher_mem hmem.symm with hnone | hmem
          · cases hnone
          · simpa using hmem
        simp only [hvalue,foldl_cons,higher]
        by_cases hlt : accumulated cur a.best+weight a.best < accumulated cur i+weight i <;>
          simp [hbest,hpos,hlt]

lemma Scanned.foldl (h : Scanned weight cur done a)
    (hnodup : (done++rest).Nodup) : Scanned weight cur (done++rest) (rest.foldl (Scan.step weight) a) := by
  induction rest generalizing done a with
  | nil => simpa using h
  | cons i rest ih =>
    have hi : i ∉ done := fun hmem => (nodup_append.mp hnodup).2.2 i hmem i mem_cons_self rfl
    rw [append_cons] at hnodup ⊢
    exact ih (h.step hi) hnodup

lemma scanned (weight : ℤ → ℤ) (cur : Cursor) (hnodup : candidates.Nodup) :
    Scanned weight cur candidates (candidates.foldl (Scan.step weight) { cur }) := by
  have hstart : Scanned weight cur [] { cur } := ⟨by simp,by simp,rfl,rfl⟩
  exact hstart.foldl hnodup

/-! The turns. -/

def members (candidates : List ℤ) (weight : ℤ → ℤ) : List ℤ := candidates.filter fun i => 0 < weight i

lemma mem_members : i ∈ (members candidates weight).toFinset ↔ i ∈ candidates ∧ 0 < weight i := by
  simp [members]

lemma weight_pos : ∀ i ∈ (members candidates weight).toFinset, 0 < weight i := fun _ hi => (mem_members.mp hi).2

lemma sum_members (weight : ℤ → ℤ) (hnodup : candidates.Nodup) :
    ∑ i ∈ (members candidates weight).toFinset, weight i = ((members candidates weight).map weight).sum :=
  sum_toFinset weight (hnodup.filter _)

section
variable (h : Scanned weight cur candidates a)
include h

lemma Scanned.found (hpos : ∃ i ∈ candidates, 0 < weight i) : a.found := by
  obtain ⟨j,hj,hjpos⟩ := hpos
  have hne : candidates.filter (fun i => 0 < weight i) ≠ [] :=
    ne_nil_of_mem (mem_filter.mpr ⟨hj,by simpa using hjpos⟩)
  have hsome := higher_isSome (fun i => accumulated cur i+weight i) (o := none) (.inr hne)
  rw [← h.best] at hsome
  by_contra hnot
  rw [if_neg hnot] at hsome
  cases hsome

theorem Scanned.highest (hfound : a.found) : a.best ∈ (members candidates weight).toFinset ∧
    ∀ i ∈ (members candidates weight).toFinset, accumulated cur i+weight i ≤ accumulated cur a.best+weight a.best := by
  have hbest := h.best
  rw [hfound] at hbest
  refine ⟨?_,fun i hi => (higher_le hbest.symm).2 i (mem_toFinset.mp hi)⟩
  rcases higher_mem hbest.symm with hnone | hmem
  · cases hnone
  · exact mem_toFinset.mpr hmem

lemma Scanned.accumulated_kept
    (hi : i ∈ (members candidates weight).toFinset) : accumulated a.kept i = accumulated cur i+weight i := by
  rw [mem_members] at hi
  rw [Scan.kept,accumulated_deleteWhere (fun i => i ∉ a.live) (fun _ => rfl),h.value]
  simp [h.live,hi]

lemma Scanned.mem_kept (hrow : row ∈ a.kept.rows) : row.1 ∈ (members candidates weight).toFinset := by
  have hlive := (mem_filter.mp hrow).2
  simp only [Bool.not_eq_true',decide_eq_false_iff_not,not_not] at hlive
  exact mem_members.mpr ((h.live _).mp hlive)

end

theorem nextWeighted_turn (state : WeightedCursor) (channelID : ℤ) (hnodup : candidates.Nodup)
    (hpos : ∃ i ∈ candidates, 0 < weight i) :
    ∃ b cur', nextWeighted state channelID candidates weight = (Function.update state channelID (some cur'),some b) ∧
      Turn (members candidates weight).toFinset weight (accumulated (cursorOf state channelID)) b (accumulated cur') ∧
      ∀ row ∈ cur'.rows, row.1 ∈ (members candidates weight).toFinset := by
  have hscan := scanned weight (cursorOf state channelID) hnodup
  have hfound := hscan.found hpos
  obtain ⟨hmem,hhig⟩ := hscan.highest hfound
  refine ⟨_,_,if_pos hfound,⟨hmem,hhig,fun i hi => ?_⟩,fun row hrow => ?_⟩
  · rw [accumulated_put,hscan.accumulated_kept hmem,hscan.accumulated_kept hi,sum_members weight hnodup,hscan.total]
    by_cases heq : i = (candidates.foldl (Scan.step weight) { cur := cursorOf state channelID }).best
    · rw [if_pos heq,if_pos heq,← heq]
      rfl
    · rw [if_neg heq,if_neg heq,sub_zero]
  · rcases mem_put.mp hrow with rfl | ⟨hold,-⟩
    · exact hmem
    · exact hscan.mem_kept hold

lemma nextWeighted_mem (hnodup : candidates.Nodup) (h : nextWeighted state channelID candidates weight = (state',some i)) :
    i ∈ candidates ∧ 0 < weight i := by
  rw [nextWeighted] at h
  split at h
  · next hfound =>
    cases h
    exact mem_members.mp ((scanned weight (cursorOf state channelID) hnodup).highest hfound).1
  · cases h

/-! Call after call. -/

def calls (state : WeightedCursor) (channelID : ℤ) (candidates : List ℤ) (weight : ℤ → ℤ) : ℕ → WeightedCursor
  | 0 => state
  | n+1 => (nextWeighted (calls state channelID candidates weight n) channelID candidates weight).1

def pick (state : WeightedCursor) (channelID : ℤ) (candidates : List ℤ) (weight : ℤ → ℤ) (n : ℕ) : Option ℤ :=
  (nextWeighted (calls state channelID candidates weight n) channelID candidates weight).2

/-- `W`, the sum of the positive weights. -/
def period (candidates : List ℤ) (weight : ℤ → ℤ) : ℕ := (((members candidates weight).map weight).sum).toNat

section
variable {candidates : List ℤ} {weight : ℤ → ℤ} (hnodup : candidates.Nodup) (hpos : ∃ i ∈ candidates, 0 < weight i)
include hnodup hpos

theorem rotation_calls (hstart : state channelID = none) : Rotation (members candidates weight).toFinset weight
      (fun n => accumulated (cursorOf (calls state channelID candidates weight n) channelID))
      (fun n => (pick state channelID candidates weight n).getD 0) where
  start i _ := by simp [calls,cursorOf,hstart,accumulated]
  turn n := by
    obtain ⟨b,cur',hnext,hturn,-⟩ := nextWeighted_turn (calls state channelID candidates weight n) channelID hnodup hpos
    simpa [pick,calls,hnext,cursorOf] using hturn

lemma pick_eq_some (state : WeightedCursor) (channelID : ℤ) (n : ℕ) :
    ∃ b, pick state channelID candidates weight n = some b ∧ b ∈ (members candidates weight).toFinset := by
  obtain ⟨b,cur',hnext,hturn,-⟩ := nextWeighted_turn (calls state channelID candidates weight n) channelID hnodup hpos
  exact ⟨b,by rw [pick,hnext],hturn.mem⟩

lemma calls_succ : ∃ cur, calls state channelID candidates weight (n+1) channelID = some cur ∧
      cursorOf (calls state channelID candidates weight (n+1)) channelID = cur ∧
      ∀ row ∈ cur.rows, row.1 ∈ (members candidates weight).toFinset := by
  obtain ⟨b,cur',hnext,-,hrows⟩ := nextWeighted_turn (calls state channelID candidates weight n) channelID hnodup hpos
  have hcalls : calls state channelID candidates weight (n+1) channelID = some cur' := by
    rw [calls,hnext]
    exact update_self ..
  exact ⟨cur',hcalls,by rw [cursorOf,hcalls]; rfl,hrows⟩

lemma period_pos :
    0 < period candidates weight ∧ ∑ i ∈ (members candidates weight).toFinset, weight i = period candidates weight := by
  obtain ⟨j,hj,hjpos⟩ := hpos
  have hsum := Finset.sum_pos weight_pos ⟨j,mem_members.mpr ⟨hj,hjpos⟩⟩
  have hlist := sum_members weight hnodup
  rw [period]
  omega

lemma count_pick (hstart : state channelID = none) (k : ℕ) (hi : i ∈ candidates) :
    (Nat.count (fun m => pick state channelID candidates weight (k*period candidates weight+m) = some i)
      (period candidates weight) : ℤ) = max (weight i) 0 := by
  have hpick := pick_eq_some hnodup hpos state channelID
  by_cases hi' : 0 < weight i
  · have hblo := (rotation_calls hnodup hpos hstart).count_block weight_pos
      (period_pos hnodup hpos).2 k (mem_members.mpr ⟨hi,hi'⟩)
    rw [max_eq_left hi'.le,← hblo]
    congr 2
    funext m
    obtain ⟨b,hb,-⟩ := hpick (k*period candidates weight+m)
    simp [hb]
  · have hnev : ∀ m, pick state channelID candidates weight (k*period candidates weight+m) ≠ some i := by
      intro m heq
      obtain ⟨b,hb,hmem⟩ := hpick (k*period candidates weight+m)
      obtain rfl := Option.some.inj (hb.symm.trans heq)
      exact hi' (mem_members.mp hmem).2
    rw [max_eq_right (not_lt.mp hi')]
    simp [hnev]

/-- A member's value, raised by the sum of the weights, stays within as many sums as there are candidates: while these
fit a word, no value of the loop wraps. -/
theorem calls_bounded (hstart : state channelID = none) (n : ℕ) (hi : i ∈ (members candidates weight).toFinset) :
    -(period candidates weight : ℤ) < accumulated (cursorOf (calls state channelID candidates weight n) channelID) i ∧
      accumulated (cursorOf (calls state channelID candidates weight n) channelID) i+period candidates weight ≤
        candidates.length*period candidates weight := by
  have hrot := rotation_calls hnodup hpos hstart
  rw [← (period_pos hnodup hpos).2]
  refine ⟨hrot.gt_neg weight_pos n i hi,(hrot.add_le weight_pos n hi).trans ?_⟩
  have hcard : (members candidates weight).toFinset.card ≤ candidates.length :=
    (toFinset_card_le _).trans (length_filter_le _ _)
  exact mul_le_mul_of_nonneg_right (by exact_mod_cast hcard) (Finset.sum_nonneg fun i hi => (weight_pos i hi).le)

end

/-- In every block of `W` calls each candidate is picked as often as its weight says. -/
theorem nextWeighted_exact (state : WeightedCursor) (channelID : ℤ) {candidates : List ℤ} {weight : ℤ → ℤ}
    (hnodup : candidates.Nodup) (hpos : ∃ i ∈ candidates, 0 < weight i) :
    let start := resetWeightedCursor state channelID
    let W := period candidates weight
    (∀ n, ∃ cur, calls start channelID candidates weight (n+1) channelID = some cur ∧ cur.total Prod.snd = 0) ∧
    ∀ k, (∀ i ∈ candidates,
        (Nat.count (fun m => pick start channelID candidates weight (k*W+m) = some i) W : ℤ) = max (weight i) 0) ∧
      ∃ cur, calls start channelID candidates weight ((k+1)*W) channelID = some cur ∧ ∀ row ∈ cur.rows, row.2 = 0 := by
  intro start W
  have hstart : start channelID = none := update_self ..
  have hrot := rotation_calls hnodup hpos hstart
  refine ⟨fun n => ?_,fun k => ⟨fun i hi => count_pick hnodup hpos hstart k hi,?_⟩⟩
  · obtain ⟨cur,hcalls,hcur,hrows⟩ := calls_succ hnodup hpos
    have hsum := hrot.sum_eq_zero (n+1)
    rw [hcur] at hsum
    exact ⟨cur,hcalls,(total_eq_sum hrows).trans hsum⟩
  · obtain ⟨hWpos,hW⟩ := period_pos hnodup hpos
    obtain ⟨n,hn⟩ := Nat.exists_eq_succ_of_ne_zero (Nat.mul_pos (Nat.succ_pos k) hWpos).ne'
    obtain ⟨cur,hcalls,hcur,hrows⟩ := calls_succ hnodup hpos
    refine ⟨cur,(congrArg (calls start channelID candidates weight · channelID) hn).trans hcalls,fun row hrow => ?_⟩
    have hzero := hrot.returns weight_pos hW (k+1) row.1 (hrows row hrow)
    have hget : cur.get? row.1 = some row := get?_of_mem hrow
    rw [hn,hcur] at hzero
    simpa [accumulated,hget] using hzero

def spread (i : ℤ) : ℤ := if i = 0 then 2 else if i = 1 then 1 else -4

theorem nextWeighted_exact_spread :
    [0,1,2].Nodup ∧ (∃ i ∈ [0,1,2], 0 < spread i) ∧ period [0,1,2] spread = 3 ∧
    (Nat.count (fun m => pick (resetWeightedCursor (fun _ => none) 7) 7 [0,1,2] spread (0*period [0,1,2] spread+m) = some 0)
      (period [0,1,2] spread) : ℤ) = max (spread 0) 0 :=
  ⟨by decide,by decide,by decide,((nextWeighted_exact (fun _ => none) 7 (by decide) (by decide)).2 0).1 0 (by decide)⟩

end LurusHub.WeightedRotation
