import LurusHub.AbilityRouting

/-! The draw by weight from the rows of a tier. The random number is counted down to zero or less,
so the first row has a number too many and the last one too few. -/
namespace LurusHub.AbilityRouting
open ChannelCache WeightedDraw Int64 List

def sumOfShares (rows : List Ability) : ℕ := (rows.map fun a => a.weight.toNat+10).sum

structure Proportional (db : Database) (rows : List Ability) (weightSum : Int64)
    (call : Int64 → Except RouteError (Option Channel)) : Prop where
  range : weightSum.toInt = sumOfShares rows
  share : ∀ a ∈ rows, Nat.count (fun r => call (Int64.ofNat r) = .ok (db.channels.get? a.channelId)) (sumOfShares rows) =
    a.weight.toNat+10

def candidatesWhere (db : Database) (group model : String) (retry : ℕ) (tenantID : String)
    (pred : Channel → Bool) : List Ability :=
  tierRows (accepted db pred (orderByWeight (baseRows db group model tenantID))) retry

/-! The draws in exact numbers. -/

def shares (rows : List Ability) : List (ℤ × ℕ) := rows.map fun a => (a.channelId,a.weight.toNat+10)

lemma total_shares (rows : List Ability) : total (shares rows) = sumOfShares rows := by
  rw [total,shares,map_map]
  rfl

@[simp] lemma shares_cons (rows : List Ability) :
    shares (a::rows) = (a.channelId,a.weight.toNat+10)::shares rows := rfl

lemma toInt64_add_ten (w : UInt64) : w.toInt64+10 = Int64.ofNat (w.toNat+10) := by
  have hw : w.toInt64 = ofNat w.toNat := by rw [← UInt64.toInt64_ofNat',UInt64.ofNat_toNat]
  rw [hw,ofNat_add]
  rfl

lemma weightSumWhere_eq (rows : List Ability) : weightSumWhere rows = Int64.ofNat (total (shares rows)) := by
  have hfold : ∀ n : ℕ, rows.foldl (fun sum a => sum+(a.weight.toInt64+10)) (ofNat n) =
      ofNat (n+total (shares rows)) := by
    induction rows with
    | nil => simp [shares,total]
    | cons a rows ih =>
      intro n
      rw [foldl_cons,toInt64_add_ten,← ofNat_add,ih,shares_cons,total_cons,Nat.add_assoc]
  simpa [weightSumWhere] using hfold 0

lemma weightSumForTenant_eq (rows : List Ability) : weightSumForTenant rows = Int64.ofNat (total (shares rows)) := by
  have hfold : ∀ n : ℕ, (rows.foldl (fun sum a => sum+(a.weight+10)) (UInt64.ofNat n)).toInt64 =
      ofNat (n+total (shares rows)) := by
    induction rows with
    | nil => simp [shares,total]
    | cons a rows ih =>
      intro n
      have hnext : UInt64.ofNat n+(a.weight+10) = UInt64.ofNat (n+(a.weight.toNat+10)) := by
        rw [UInt64.ofNat_add,UInt64.ofNat_add,UInt64.ofNat_toNat]
        rfl
      rw [foldl_cons,hnext,ih,shares_cons,total_cons,Nat.add_assoc]
  simpa [weightSumForTenant] using hfold 0

lemma drawRow_eq (hsum : total (shares rows) < 2^63) (hr : r < 2^63) :
    (drawRow rows (Int64.ofNat r)).map Ability.channelId = pickLe (shares rows) r := by
  induction rows generalizing r with
  | nil => rfl
  | cons a rows ih =>
    rw [shares_cons,total_cons] at hsum
    have hdiff : (ofNat r-ofNat (a.weight.toNat+10)).toInt = (r : ℤ)-(a.weight.toNat+10 : ℕ) := by
      rw [toInt_sub,toInt_ofNat_of_lt hr,toInt_ofNat_of_lt (by omega)]
      exact Int.bmod_eq_of_le (by omega) (by omega)
    have hle : ofNat r-ofNat (a.weight.toNat+10) ≤ 0 ↔ r ≤ a.weight.toNat+10 := by
      rw [le_iff_toInt_le,toInt_zero]
      omega
    rw [drawRow,shares_cons,pickLe,toInt64_add_ten]
    simp only [hle]
    by_cases hstop : r ≤ a.weight.toNat+10
    · rw [if_pos hstop,if_pos hstop]
      rfl
    · rw [if_neg hstop,if_neg hstop,← ofNat_sub _ _ (by omega)]
      exact ih (by omega) (by omega)

lemma mem_of_drawRow (h : drawRow rows weight = some a) : a ∈ rows := by
  induction rows generalizing weight with
  | nil => cases h
  | cons b rows ih =>
    rw [drawRow] at h
    split at h
    · cases h
      exact mem_cons_self
    · exact mem_cons_of_mem _ (ih h)

lemma draws_eq (hsum : total (shares rows) < 2^63) (hr : r < total (shares rows)) :
    ∃ a ∈ rows, pickLe (shares rows) r = some a.channelId ∧ drawWhere rows (Int64.ofNat r) = a.channelId ∧
      drawForTenant rows (Int64.ofNat r) = a.channelId := by
  have heq := drawRow_eq hsum (hr.trans hsum)
  obtain ⟨id,hid⟩ := Option.ne_none_iff_exists'.mp (pickLe_ne_none hr)
  rw [hid] at heq
  obtain ⟨a,ha,rfl⟩ := Option.map_eq_some_iff.mp heq
  exact ⟨a,mem_of_drawRow ha,hid,by simp [drawWhere,ha],by simp [drawForTenant,ha]⟩

lemma toInt_ofNat_iff : (Int64.ofNat n).toInt = n ↔ n < 2^63 := by
  constructor
  · intro h
    have hlt := (ofNat n).toInt_lt
    rw [h] at hlt
    exact_mod_cast hlt
  · exact toInt_ofNat_of_lt

/-! The rows are of different channels. -/

section
lemma nodup_baseRows : ((baseRows db group model tid).map Ability.channelId).Nodup := by
  have hkeys := (db.abilities.unique.sublist (filter_sublist.map _) :
    ((baseRows db group model tid).map fun a => (a.group,a.model,a.channelId)).Nodup)
  refine List.Nodup.map_on ?_ (List.Nodup.of_map _ hkeys)
  intro a ha b hb hid
  have hof : ∀ c ∈ baseRows db group model tid, c.group = group ∧ c.model = model := by
    intro c hc
    have hcond := (mem_filter.mp hc).2
    simp only [abilityBaseCondition,Bool.and_eq_true,decide_eq_true_eq] at hcond
    exact ⟨hcond.1.1.1,hcond.1.1.2⟩
  obtain ⟨hag,ham⟩ := hof a ha
  obtain ⟨hbg,hbm⟩ := hof b hb
  exact inj_on_of_nodup_map hkeys ha hb (by rw [hag,ham,hbg,hbm,hid])

variable {rows : List Ability}

lemma nodup_orderByWeight (h : (rows.map Ability.channelId).Nodup) :
    ((orderByWeight rows).map Ability.channelId).Nodup :=
  ((perm_insertionSort _ rows).map Ability.channelId).nodup_iff.mpr h

lemma nodup_filter (h : (rows.map Ability.channelId).Nodup) :
    ((rows.filter p).map Ability.channelId).Nodup := h.sublist (filter_sublist.map _)

lemma nodup_candidatesWhere :
    ((candidatesWhere db group model retry tenantID pred).map Ability.channelId).Nodup :=
  nodup_filter (nodup_filter (nodup_orderByWeight nodup_baseRows))

lemma sublist_getChannelQuery (h : getChannelQuery db group model retry tid = .ok rows) :
    rows.Sublist (baseRows db group model tid) := by
  unfold getChannelQuery at h
  split at h
  · cases h
    exact filter_sublist
  · cases hp : getPriority db group model retry tid with
    | error e => rw [hp] at h; cases h
    | ok priority =>
      rw [hp] at h
      cases h
      exact filter_sublist

lemma nodup_getChannelQuery (h : getChannelQuery db group model retry tenantID = .ok rows) :
    (rows.map Ability.channelId).Nodup := nodup_baseRows.sublist ((sublist_getChannelQuery h).map _)

lemma found_candidatesWhere :
    ∀ a ∈ candidatesWhere db group model retry tenantID pred, db.channels.get? a.channelId ≠ none := by
  intro a ha hnone
  have hacc := (mem_filter.mp (mem_filter.mp ha).1).2
  rw [hnone] at hacc
  cases hacc

end

/-! Which rows are drawn as they should. -/

lemma proportional_iff (hne : rows ≠ []) (hids : (rows.map Ability.channelId).Nodup)
    (hfound : ∀ a ∈ rows, db.channels.get? a.channelId ≠ none)
    (hwei : weightSum = Int64.ofNat (total (shares rows)))
    (hcall : total (shares rows) < 2^63 → ∀ r < total (shares rows), ∃ id, pickLe (shares rows) r = some id ∧
      call (Int64.ofNat r) = .ok (db.channels.get? id)) :
    Proportional db rows weightSum call ↔ ∃ a, rows = [a] ∧ a.weight.toNat+10 < 2^63 := by
  have hcount : total (shares rows) < 2^63 → ∀ a ∈ rows,
      Nat.count (fun r => call (ofNat r) = .ok (db.channels.get? a.channelId)) (total (shares rows)) =
      Nat.count (fun r => pickLe (shares rows) r = some a.channelId) (total (shares rows)) := by
    intro hfits a ha
    refine le_antisymm (Nat.count_mono_left fun r hr h => ?_) (Nat.count_mono_left fun r hr h => ?_)
    · obtain ⟨id,hid,hret⟩ := hcall hfits r hr
      obtain ⟨c,hc⟩ := Option.ne_none_iff_exists'.mp (hfound a ha)
      have hsame := Except.ok.inj (hret.symm.trans h)
      rw [hc] at hsame
      rw [hid,← KeyedTable.key_of_get? hsame,KeyedTable.key_of_get? hc]
    · obtain ⟨id,hid,hret⟩ := hcall hfits r hr
      rw [h] at hid
      rw [hret,← Option.some.inj hid]
  obtain ⟨a,rest,rfl⟩ := exists_cons_of_ne_nil hne
  constructor
  · intro h
    have hfits : total (shares (a::rest)) < 2^63 := by
      have hran := h.range
      rwa [hwei,← total_shares,toInt_ofNat_iff] at hran
    cases rest with
    | nil => exact ⟨a,rfl,by simpa [shares,total] using hfits⟩
    | cons b rest =>
      have hshare := h.share a mem_cons_self
      have hother : ∀ x ∈ shares (b::rest), x.1 ≠ a.channelId := by
        intro x hx heq
        obtain ⟨c,hc,rfl⟩ := mem_map.mp hx
        rw [map_cons,nodup_cons] at hids
        exact hids.1 (heq ▸ mem_map_of_mem hc)
      have hpos : 0 < total (shares (b::rest)) := by rw [shares_cons,total_cons]; omega
      rw [← total_shares,hcount hfits a mem_cons_self,shares_cons,count_pickLe_head hpos hother] at hshare
      omega
  · rintro ⟨c,heq,hfits⟩
    obtain ⟨rfl,rfl⟩ := cons.inj heq
    have htotal : total (shares [a]) = a.weight.toNat+10 := by simp [shares,total]
    refine ⟨?_,fun d hd => ?_⟩
    · rw [hwei,← total_shares,toInt_ofNat_iff]
      exact hfits
    · rw [← total_shares,hcount (by rw [htotal]; exact hfits) d hd]
      obtain rfl := mem_singleton.mp hd
      exact count_pickLe_singleton _ _

lemma ofNat_pos (hpos : 0 < n) (hfits : n < 2^63) : ¬Int64.ofNat n ≤ 0 := by
  rw [le_iff_toInt_le,toInt_ofNat_of_lt hfits,toInt_zero]
  omega

lemma total_shares_pos (hne : rows ≠ []) : 0 < total (shares rows) := by
  obtain ⟨a,rest,rfl⟩ := exists_cons_of_ne_nil hne
  rw [shares_cons,total_cons]
  omega

lemma getChannelForTenantWhere_eq
    (hne : candidatesWhere db group model retry tid pred ≠ []) (weight : Int64) :
    getChannelForTenantWhere db group model retry tid pred weight =
      if weightSumWhere (candidatesWhere db group model retry tid pred) ≤ 0 then .error .emptyRange
      else .ok (db.channels.get? (drawWhere (candidatesWhere db group model retry tid pred) weight)) := by
  have haccepted : accepted db pred (orderByWeight (baseRows db group model tid)) ≠ [] := by
    intro hnil
    simp [candidatesWhere,hnil,tierRows] at hne
  have hrows : orderByWeight (baseRows db group model tid) ≠ [] := by
    intro hnil
    simp [hnil,accepted] at haccepted
  simp only [getChannelForTenantWhere,if_neg hrows,if_neg haccepted]
  rfl

lemma getChannelForTenant_eq
    (hquery : getChannelQuery db group model retry tid = .ok rows) (hne : orderByWeight rows ≠ [])
    (hc : db.channels.get? (drawForTenant (orderByWeight rows) weight) = some c) :
    getChannelForTenant db group model retry tid weight =
      if weightSumForTenant (orderByWeight rows) ≤ 0 then .error .emptyRange else .ok (some c) := by
  simp only [getChannelForTenant,hquery,Except.bind,if_neg hne,hc]

theorem draws_proportional_iff (db : Database) (group model : String) (retry : ℕ) (tenantID : String) :
    (∀ pred, let rows := candidatesWhere db group model retry tenantID pred
      rows ≠ [] → (Proportional db rows (weightSumWhere rows) (getChannelForTenantWhere db group model retry tenantID pred) ↔
        ∃ a, rows = [a] ∧ a.weight.toNat+10 < 2^63)) ∧
    (∀ found, getChannelQuery db group model retry tenantID = .ok found → let rows := orderByWeight found
      rows ≠ [] → (∀ a ∈ rows, db.channels.get? a.channelId ≠ none) →
      (Proportional db rows (weightSumForTenant rows) (getChannelForTenant db group model retry tenantID) ↔
        ∃ a, rows = [a] ∧ a.weight.toNat+10 < 2^63)) := by
  constructor
  · intro pred rows hne
    refine proportional_iff hne nodup_candidatesWhere found_candidatesWhere (weightSumWhere_eq rows) fun hfits r hr => ?_
    obtain ⟨a,-,hpick,hdraw,-⟩ := draws_eq hfits hr
    refine ⟨a.channelId,hpick,?_⟩
    rw [getChannelForTenantWhere_eq hne,weightSumWhere_eq,if_neg (ofNat_pos (total_shares_pos hne) hfits),hdraw]
  · intro found hquery rows hne hfound
    refine proportional_iff hne (nodup_orderByWeight (nodup_getChannelQuery hquery)) hfound (weightSumForTenant_eq rows)
      fun hfits r hr => ?_
    obtain ⟨a,ha,hpick,-,hdraw⟩ := draws_eq hfits hr
    obtain ⟨c,hc⟩ := Option.ne_none_iff_exists'.mp (hfound a ha)
    refine ⟨a.channelId,hpick,?_⟩
    rw [getChannelForTenant_eq hquery hne (hdraw ▸ hc),weightSumForTenant_eq,
      if_neg (ofNat_pos (total_shares_pos hne) hfits),hc]

/-- A channel with one row of weight 20, and one beside it of weight 0. -/
def heavyChannel : Channel where
  id := 1
  weight := some 20
  models := ["gpt-4"]
  group := ["default"]

def heavyRow : Ability where
  group := "default"
  model := "gpt-4"
  channelId := 1
  enabled := true
  priority := some 0
  weight := 20

def lightRow : Ability := { heavyRow with channelId := 2, weight := 0 }

def oneRow : Database where
  abilities := KeyedTable.empty.put heavyRow
  channels := KeyedTable.empty.put heavyChannel

def twoRows : Database where
  abilities := oneRow.abilities.put lightRow
  channels := oneRow.channels.put { heavyChannel with id := 2, weight := none }

theorem draws_favour_first :
    candidatesWhere twoRows "default" "gpt-4" 0 "" (fun _ => true) = [heavyRow,lightRow] ∧
    getChannelQuery twoRows "default" "gpt-4" 0 "" = .ok [heavyRow,lightRow] ∧
    ¬Proportional twoRows [heavyRow,lightRow] (weightSumWhere [heavyRow,lightRow])
      (getChannelForTenantWhere twoRows "default" "gpt-4" 0 "" fun _ => true) ∧
    ¬Proportional twoRows [heavyRow,lightRow] (weightSumForTenant [heavyRow,lightRow])
      (getChannelForTenant twoRows "default" "gpt-4" 0 "") := by
  refine ⟨by decide +kernel,by decide +kernel,fun h => ?_,fun h => ?_⟩
  · exact absurd (h.share heavyRow (by decide)) (by decide +kernel)
  · exact absurd (h.share heavyRow (by decide)) (by decide +kernel)

theorem draws_proportional_oneRow : Proportional oneRow [heavyRow] (weightSumWhere [heavyRow])
      (getChannelForTenantWhere oneRow "default" "gpt-4" 0 "" fun _ => true) ∧
    Proportional oneRow [heavyRow] (weightSumForTenant [heavyRow]) (getChannelForTenant oneRow "default" "gpt-4" 0 "") := by
  obtain ⟨hwhe,htenant⟩ := draws_proportional_iff oneRow "default" "gpt-4" 0 ""
  exact ⟨(hwhe (fun _ => true) (by decide +kernel)).mpr ⟨heavyRow,by decide +kernel,by decide⟩,
    (htenant [heavyRow] (by decide +kernel) (by decide +kernel) (by decide +kernel)).mpr ⟨heavyRow,by decide +kernel,by decide⟩⟩

end LurusHub.AbilityRouting
