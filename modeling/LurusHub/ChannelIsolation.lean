import LurusHub.ChannelCache

/-! What other tenants' channels can do to a tenant's routing. Tables that agree on the channels of
a tenant give it the same candidates up to order, which does not matter to what can be drawn; only
the choice between the exact and the normalised name looks at foreign channels. -/
namespace LurusHub.ChannelCache
open KeyedTable List

/-! Selection among cached channels. -/

def answer (scores : Scores) (retry : ℕ) (pred : Option (Channel → Bool)) (channels : List Channel) (draw : ℕ) :
    Except SelectError (Option Channel) :=
  if channels = [] then .ok none
  else
    let accepted := (pred.map fun p => channels.filter p).getD channels
    if accepted = [] then .error .noChannelSatisfiesPredicate else choose scores accepted retry draw

variable {channels cs ds : List Channel}

lemma keepIds_map (h : ∀ c ∈ channels, cache.channelsIDM.get? c.id = some c) (p : Channel → Bool) :
    keepIds cache p (channels.map Channel.id) = (channels.filter p).map Channel.id := by
  rw [keepIds,filter_map]
  congr 1
  exact filter_congr fun c hc => by simp [h c hc]

lemma resolve_map (h : ∀ c ∈ channels, cache.channelsIDM.get? c.id = some c) :
    resolve cache (channels.map Channel.id) = .ok channels := by
  induction channels with
  | nil => rfl
  | cons c cs ih =>
    have hc := h c mem_cons_self
    have hcs := ih fun d hd => h d (mem_cons_of_mem _ hd)
    simp [resolve,hc,hcs]

def visible (channels : Channels) (paused : Paused) (tenantID group model : String) : List Channel :=
  (indexed channels paused group model).filter (Serves tenantID)

/-- The tenant's candidates: by the exact name if any channel is listed under it. -/
def candidates (channels : Channels) (paused : Paused) (tenantID group model : String) : List Channel :=
  if indexed channels paused group model = [] then
    visible channels paused tenantID group (formatMatchingModelName model)
  else visible channels paused tenantID group model

/-- The channel is not filtered out; the empty tenant asks for no filter. -/
def Shown (tenantID : String) (channel : Channel) : Bool := tenantID = "" || Serves tenantID channel

lemma filterChannelsForTenant_eq :
    filterChannelsForTenant cache ids tid = keepIds cache (Shown tid) ids := by
  unfold filterChannelsForTenant
  split_ifs with hT
  · subst hT
    refine (filter_eq_self.mpr fun id _ => ?_).symm
    exact Option.all_eq_true _ _ |>.mpr fun c _ => rfl
  · have hsame : Shown tid = Serves tid := funext fun c => by simp [Shown,hT]
    rw [hsame]

def shown (channels : Channels) (paused : Paused) (tenantID group model : String) : List Channel :=
  (if indexed channels paused group model = [] then indexed channels paused group (formatMatchingModelName model)
    else indexed channels paused group model).filter (Shown tenantID)

section Rebuilt
variable (channels : Channels) (paused : Paused) (tid group model : String)

lemma cached_shown :
    ∀ c ∈ shown channels paused tid group model,
    (rebuildChannelCache channels paused).channelsIDM.get? c.id = some c := by
  intro c hc
  have hlisted := (mem_filter.mp hc).1
  split_ifs at hlisted
  · exact get?_of_mem (mem_indexed.mp hlisted).1
  · exact get?_of_mem (mem_indexed.mp hlisted).1

lemma filterChannelsForTenant_rebuild :
    filterChannelsForTenant (rebuildChannelCache channels paused)
    ((rebuildChannelCache channels paused).listed group model) tid =
      (shown channels paused tid group model).map Channel.id := by
  have hcached : ∀ m, ∀ c ∈ indexed channels paused group m,
      (rebuildChannelCache channels paused).channelsIDM.get? c.id = some c :=
    fun _ _ hc => get?_of_mem (mem_indexed.mp hc).1
  simp only [filterChannelsForTenant_eq,Cache.listed,index_rebuild,map_eq_nil_iff,shown]
  split_ifs
  · exact keepIds_map (hcached _) _
  · exact keepIds_map (hcached _) _

lemma candidates_eq (hT : tid ≠ "") :
    candidates channels paused tid group model = shown channels paused tid group model := by
  have hsame : Serves tid = Shown tid := funext fun c => by simp [Shown,hT]
  unfold candidates visible shown
  rw [hsame]
  split_ifs
  · rfl
  · rfl

end Rebuilt

theorem getRandomSatisfiedChannelWhere_rebuild (channels : Channels)
    {tid : String} (hT : tid ≠ "") :
    getRandomSatisfiedChannelWhere (rebuildChannelCache channels paused) scores tid group model retry pred draw =
      answer scores retry pred (candidates channels paused tid group model) draw := by
  rw [candidates_eq _ _ _ _ _ hT]
  have hall := cached_shown channels paused tid group model
  simp only [getRandomSatisfiedChannelWhere,filterChannelsForTenant_rebuild,answer,map_eq_nil_iff]
  split
  · rfl
  · cases pred with
    | none => simp [resolve_map hall,Except.bind]
    | some p =>
      have hp : ∀ c ∈ (shown channels paused tid group model).filter p,
          (rebuildChannelCache channels paused).channelsIDM.get? c.id = some c :=
        fun c hc => hall c (mem_filter.mp hc).1
      simp [filterChannelsWhere,keepIds_map hall,resolve_map hp,Except.bind]

/-! The order of the candidates does not matter. -/

lemma sort_dedup_congr {l l' : List ℤ} (h : ∀ p, p ∈ l ↔ p ∈ l') :
    l.dedup.insertionSort (· ≥ ·) = l'.dedup.insertionSort (· ≥ ·) := by
  have hperm : l.dedup.Perm l'.dedup := by
    rw [perm_ext_iff_of_nodup l.nodup_dedup l'.nodup_dedup]
    simpa only [mem_dedup] using h
  exact List.Perm.eq_of_pairwise' (pairwise_insertionSort _ _) (pairwise_insertionSort _ _)
    (((perm_insertionSort _ _).trans hperm).trans (perm_insertionSort _ _).symm)

lemma targetPriority_perm (h : cs.Perm ds) : targetPriority cs retry = targetPriority ds retry := by
  have hsorted : sortedUniquePriorities cs = sortedUniquePriorities ds :=
    sort_dedup_congr fun _ => (h.map Channel.getPriority).mem_iff
  rw [targetPriority,targetPriority,hsorted]

lemma tier_perm (h : cs.Perm ds) (retry : ℕ) : (tier cs retry).Perm (tier ds retry) := by
  rw [tier,targetPriority_perm h]
  exact h.filter _

/-- The answers that candidates can be given. -/
def Possible (scores : Scores) (retry : ℕ) (pred : Option (Channel → Bool)) (channels : List Channel)
    (a : Except SelectError (Option Channel)) : Prop :=
  ∃ draw, answer scores retry pred channels draw = a

lemma choose_of_not_single (h : ¬∃ c, cs = [c]) (scores : Scores) (retry draw : ℕ) :
    choose scores cs retry draw = drawFrom scores cs retry draw := by
  unfold choose
  split
  · next c => exact absurd ⟨c,rfl⟩ h
  · rfl

lemma weightOf_congr (h : scores c.id = scores' c.id) : weightOf scores c = weightOf scores' c := by
  rw [weightOf,weightOf,h]

lemma Roomy.perm (h : Roomy scores cs) (hperm : cs.Perm ds) (hsco : ∀ c ∈ cs, scores c.id = scores' c.id) :
    Roomy scores' ds := by
  have hweights : cs.map (fun c => number (weightOf scores c)*100+100) =
      cs.map fun c => number (weightOf scores' c)*100+100 :=
    map_congr_left fun c hc => by rw [weightOf_congr (hsco c hc)]
  rw [Roomy,hweights,(hperm.map _).sum_nat] at h
  exact h

lemma exists_choose_of_perm (h : cs.Perm ds) (hne : cs ≠ []) (hroom : Roomy scores cs)
    (hsco : ∀ c ∈ cs, scores c.id = scores' c.id)
    (ha : ∃ draw, choose scores cs retry draw = a) : ∃ draw, choose scores' ds retry draw = a := by
  by_cases hone : ∃ c, cs = [c]
  · obtain ⟨c,rfl⟩ := hone
    obtain rfl := singleton_perm.mp h
    exact ha
  · have hone' : ¬∃ c, ds = [c] := fun ⟨c,hc⟩ => hone ⟨c,perm_singleton.mp (hc ▸ h)⟩
    have hne' : ds ≠ [] := fun hd => hne (perm_nil.mp (hd ▸ h))
    have hweight : ∀ c ∈ tier cs retry, weightOf scores c = weightOf scores' c := fun c hc =>
      weightOf_congr (hsco c (mem_filter.mp hc).1)
    simp only [choose_of_not_single hone,choose_of_not_single hone'] at ha ⊢
    rw [drawFrom_iff hne (hroom.tier retry)] at ha
    rw [drawFrom_iff hne' ((hroom.perm h hsco).tier retry)]
    obtain ⟨c,hc,hcha,hw⟩ := ha
    have htier := tier_perm h retry
    refine ⟨c,htier.mem_iff.mp hc,hcha,?_⟩
    rw [← hweight c hc]
    refine hw.imp_right fun hzero d hd => ?_
    rw [← hweight d (htier.mem_iff.mpr hd)]
    exact hzero d (htier.mem_iff.mpr hd)

lemma choose_perm (h : cs.Perm ds) (hne : cs ≠ []) (hroom : Roomy scores cs)
    (hsco : ∀ c ∈ cs, scores c.id = scores' c.id) :
    (∃ draw, choose scores cs retry draw = a) ↔ ∃ draw, choose scores' ds retry draw = a :=
  ⟨exists_choose_of_perm h hne hroom hsco,
    exists_choose_of_perm h.symm (fun hd => hne (perm_nil.mp (hd ▸ h))) (hroom.perm h hsco)
      (fun c hc => (hsco c (h.mem_iff.mpr hc)).symm)⟩

lemma possible_perm (h : cs.Perm ds) (hroom : Roomy scores cs) (hsco : ∀ c ∈ cs, scores c.id = scores' c.id)
    (a : Except SelectError (Option Channel)) :
    Possible scores retry pred cs a ↔ Possible scores' retry pred ds a := by
  have hnil : cs = [] ↔ ds = [] := ⟨fun hc => nil_perm.mp (hc ▸ h),fun hd => perm_nil.mp (hd ▸ h)⟩
  unfold Possible answer
  by_cases hne : cs = []
  · simp [hne,hnil.mp hne]
  · simp only [if_neg hne,if_neg (hnil.not.mp hne)]
    have haccepted : ∀ {as bs : List Channel}, as.Perm bs → as.Sublist cs →
        ((∃ draw, (if as = [] then .error .noChannelSatisfiesPredicate else choose scores as retry draw) = a) ↔
          ∃ draw, (if bs = [] then .error .noChannelSatisfiesPredicate else choose scores' bs retry draw) = a) := by
      intro as bs hperm hsub
      by_cases has : as = []
      · subst has
        simp [nil_perm.mp hperm]
      · have hbs : bs ≠ [] := fun hb => has (perm_nil.mp (hb ▸ hperm))
        simp only [if_neg has,if_neg hbs]
        exact choose_perm hperm has (hroom.sublist hsub) (fun c hc => hsco c (hsub.subset hc))
    cases pred with
    | none => exact haccepted h (Sublist.refl cs)
    | some p => exact haccepted (h.filter p) filter_sublist

lemma answer_ne_none (h : channels ≠ [])
    (draw : ℕ) : answer scores retry pred channels draw ≠ .ok none := by
  intro hnone
  simp only [answer,if_neg h] at hnone
  split at hnone
  · cases hnone
  · next hacc =>
    unfold choose at hnone
    split at hnone
    · cases hnone
    · exact drawFrom_ne_none hnone

/-! Two tables. -/

structure Agree (tenantID : String) (t₁ t₂ : Channels) (p₁ p₂ : Paused) (s₁ s₂ : Scores) : Prop where
  channels : ∀ c, Serves tenantID c = true → (c ∈ t₁.rows ↔ c ∈ t₂.rows)
  paused : ∀ c ∈ t₁.rows, Serves tenantID c = true → ∀ model, p₁ c.id model = p₂ c.id model
  scores : ∀ c ∈ t₁.rows, Serves tenantID c = true → s₁ c.id = s₂ c.id

lemma rows_perm (h : Agree tid t₁ t₂ p₁ p₂ s₁ s₂) :
    (t₁.rows.filter (Serves tid)).Perm (t₂.rows.filter (Serves tid)) := by
  have hnodup : ∀ t : Channels, (t.rows.filter (Serves tid)).Nodup := fun t => (List.Nodup.of_map _ t.unique).filter _
  rw [perm_ext_iff_of_nodup (hnodup t₁) (hnodup t₂)]
  intro c
  simp only [mem_filter]
  exact and_congr_left fun hc => h.channels c hc

lemma filter_copies :
    (copies t p group model).filter q = ((t.rows.filter q).filter fun c => c.status = .enabled).flatMap
      fun c => (entries p group model c).map fun _ => c := by
  have hcopy : ∀ c, ((entries p group model c).map fun _ => c).filter q =
      if q c then (entries p group model c).map (fun _ => c) else [] := by
    intro c
    split
    · next hc =>
      refine filter_eq_self.mpr fun d hd => ?_
      obtain ⟨_,_,rfl⟩ := mem_map.mp hd
      exact hc
    · next hc =>
      refine filter_eq_nil_iff.mpr fun d hd => ?_
      obtain ⟨_,_,rfl⟩ := mem_map.mp hd
      exact hc
  rw [copies,filter_flatMap,filter_comm]
  induction t.rows.filter fun c => c.status = .enabled with
  | nil => rfl
  | cons c cs ih =>
    rw [flatMap_cons,hcopy,ih,filter_cons]
    split <;> rfl

lemma visible_perm (h : Agree tid t₁ t₂ p₁ p₂ s₁ s₂) (group model : String) :
    (visible t₁ p₁ tid group model).Perm (visible t₂ p₂ tid group model) := by
  have hentries : ∀ c ∈ (t₁.rows.filter (Serves tid)).filter fun c => c.status = .enabled,
      entries p₁ group model c = entries p₂ group model c := by
    intro c hc
    obtain ⟨hrow,hser⟩ := mem_filter.mp (mem_filter.mp hc).1
    simp only [entries,h.paused c hrow hser]
  have hcopies : ((copies t₁ p₁ group model).filter (Serves tid)).Perm
      ((copies t₂ p₂ group model).filter (Serves tid)) := by
    rw [filter_copies,filter_copies,flatMap_congr fun c hc => by rw [hentries c hc]]
    exact ((rows_perm h).filter _).flatMap_right _
  unfold visible indexed
  exact (((perm_insertionSort _ _).filter _).trans hcopies).trans ((perm_insertionSort _ _).filter _).symm

lemma mem_of_visible (h : c ∈ visible t p tid group model) : c ∈ t.rows ∧ Serves tid c :=
  ⟨(mem_indexed.mp (mem_filter.mp h).1).1,(mem_filter.mp h).2⟩

/-- Some channel takes requests of the group for the model, whomever it serves. -/
def Listed (t : Channels) (p : Paused) (group model : String) : Prop := ∃ c ∈ t.rows, Offers p group model c

def ListedFor (tenantID : String) (t : Channels) (p : Paused) (group model : String) : Prop :=
  ∃ c ∈ t.rows, Serves tenantID c = true ∧ Offers p group model c

lemma ne_nil_iff {α : Type*} {l : List α} : l ≠ [] ↔ ∃ a, a ∈ l :=
  ⟨exists_mem_of_ne_nil l,fun ⟨_,ha⟩ => ne_nil_of_mem ha⟩

lemma indexed_eq_nil : indexed t p group model = [] ↔ ¬Listed t p group model := by
  rw [← not_iff_not,not_not,← ne_eq,ne_nil_iff]
  exact exists_congr fun c => mem_indexed

lemma visible_eq_nil : visible t p tid group model = [] ↔ ¬ListedFor tid t p group model := by
  rw [← not_iff_not,not_not,← ne_eq,ne_nil_iff]
  refine exists_congr fun c => ?_
  rw [visible,mem_filter,mem_indexed]
  tauto

lemma visible_of_not_listed
    (h : indexed t p group model = []) : visible t p tid group model = [] := by
  simp [visible,h]

lemma possible_iff_nil :
    (∀ a, Possible s₁ retry pred cs a ↔ Possible s₂ retry pred [] a) ↔ cs = [] := by
  constructor
  · intro hsame
    by_contra hne
    obtain ⟨draw,hdraw⟩ := (hsame (.ok none)).mpr ⟨0,rfl⟩
    exact answer_ne_none hne draw hdraw
  · rintro rfl a
    simp [Possible,answer]

/-- Other tenants' channels matter only to which name of the model is looked up. -/
theorem same_answers_iff (hT : tenantID ≠ "") (h : Agree tenantID t₁ t₂ p₁ p₂ s₁ s₂) (group model : String)
    (retry : ℕ) (pred : Option (Channel → Bool))
    (hroom : ∀ m ∈ [model,formatMatchingModelName model], Roomy s₁ (visible t₁ p₁ tenantID group m)) :
    (∀ a, (∃ draw, getRandomSatisfiedChannelWhere (rebuildChannelCache t₁ p₁) s₁ tenantID group model retry pred
          draw = a) ↔
        ∃ draw, getRandomSatisfiedChannelWhere (rebuildChannelCache t₂ p₂) s₂ tenantID group model retry pred
          draw = a) ↔ ((Listed t₁ p₁ group model ↔ Listed t₂ p₂ group model) ∨
        ¬ListedFor tenantID t₁ p₁ group (formatMatchingModelName model)) := by
  simp only [getRandomSatisfiedChannelWhere_rebuild _ hT]
  change (∀ a, Possible s₁ retry pred (candidates t₁ p₁ tenantID group model) a ↔
    Possible s₂ retry pred (candidates t₂ p₂ tenantID group model) a) ↔ _
  have hexa := visible_perm h group model
  have hnor := visible_perm h group (formatMatchingModelName model)
  rw [forall_mem_cons,forall_mem_singleton] at hroom
  have hsame : ∀ {m}, (visible t₁ p₁ tenantID group m).Perm (visible t₂ p₂ tenantID group m) →
      Roomy s₁ (visible t₁ p₁ tenantID group m) → ∀ a, Possible s₁ retry pred (visible t₁ p₁ tenantID group m) a ↔
        Possible s₂ retry pred (visible t₂ p₂ tenantID group m) a := fun hperm hfit =>
    possible_perm hperm hfit (fun c hc => h.scores c (mem_of_visible hc).1 (mem_of_visible hc).2)
  rw [← visible_eq_nil]
  by_cases h₁ : indexed t₁ p₁ group model = [] <;> by_cases h₂ : indexed t₂ p₂ group model = []
  · have hlisted : Listed t₁ p₁ group model ↔ Listed t₂ p₂ group model :=
      iff_of_false (indexed_eq_nil.mp h₁) (indexed_eq_nil.mp h₂)
    simp only [candidates,h₁,h₂,if_true,hlisted,true_or,iff_true]
    exact hsame hnor hroom.2
  · -- the second table hides what the first one finds under the normalised name
    have hlisted : ¬(Listed t₁ p₁ group model ↔ Listed t₂ p₂ group model) := fun hiff =>
      indexed_eq_nil.mp h₁ (hiff.mpr (not_not.mp (indexed_eq_nil.not.mp h₂)))
    have hempty : visible t₂ p₂ tenantID group model = [] :=
      nil_perm.mp (visible_of_not_listed h₁ ▸ hexa)
    simp only [candidates,h₁,h₂,if_true,if_false,hempty,hlisted,false_or]
    exact possible_iff_nil
  · have hlisted : ¬(Listed t₁ p₁ group model ↔ Listed t₂ p₂ group model) := fun hiff =>
      indexed_eq_nil.mp h₂ (hiff.mp (not_not.mp (indexed_eq_nil.not.mp h₁)))
    have hempty : visible t₁ p₁ tenantID group model = [] :=
      perm_nil.mp (visible_of_not_listed h₂ ▸ hexa)
    simp only [candidates,h₁,h₂,if_true,if_false,hempty,hlisted,false_or]
    have hnil : visible t₁ p₁ tenantID group (formatMatchingModelName model) = [] ↔
        visible t₂ p₂ tenantID group (formatMatchingModelName model) = [] :=
      ⟨fun hv => nil_perm.mp (hv ▸ hnor),fun hv => perm_nil.mp (hv ▸ hnor)⟩
    rw [hnil,← possible_iff_nil]
    exact forall_congr' fun a => iff_comm
  · have hlisted : Listed t₁ p₁ group model ↔ Listed t₂ p₂ group model :=
      iff_of_true (not_not.mp (indexed_eq_nil.not.mp h₁)) (not_not.mp (indexed_eq_nil.not.mp h₂))
    simp only [candidates,h₁,h₂,if_false,hlisted,true_or,iff_true]
    exact hsame hexa hroom.1

/-- A table with one shared channel, and the same with a channel of another tenant. -/
def sharedOnly (model : String) : Channels := ⟨[{ id := 1, models := [model], group := ["default"] }],by simp⟩

def withForeign (model foreign : String) : Channels :=
  ⟨[{ id := 1, models := [model], group := ["default"] },
    { id := 2, tenantId := "other", models := [foreign], group := ["default"] }],by simp⟩

lemma agree_withForeign (model foreign : String) :
    Agree "acme" (sharedOnly model) (withForeign model foreign) (fun _ _ => false) (fun _ _ => false) (fun _ => none)
      (fun _ => none) where
  channels c hc := by
    simp only [sharedOnly,withForeign,mem_cons,not_mem_nil,or_false]
    refine ⟨.inl,fun h => h.resolve_right fun hfor => ?_⟩
    subst hfor
    simp [Serves] at hc
  paused _ _ _ _ := rfl
  scores _ _ _ := rfl

theorem foreign_channel_hides_shared_one :
    let select (t : Channels) := getRandomSatisfiedChannelWhere (rebuildChannelCache t fun _ _ => false)
      (fun _ => none) "acme" "default" "gpt-4-gizmo-abc" 0 none
    Agree "acme" (sharedOnly "gpt-4-gizmo-*") (withForeign "gpt-4-gizmo-*" "gpt-4-gizmo-abc") (fun _ _ => false)
        (fun _ _ => false) (fun _ => none) (fun _ => none) ∧
      select (sharedOnly "gpt-4-gizmo-*") 0 =
        .ok (some { id := 1, models := ["gpt-4-gizmo-*"], group := ["default"] }) ∧
      ∀ draw, select (withForeign "gpt-4-gizmo-*" "gpt-4-gizmo-abc") draw = .ok none := by
  refine ⟨agree_withForeign _ _,by decide,fun draw => ?_⟩
  have hempty : candidates (withForeign "gpt-4-gizmo-*" "gpt-4-gizmo-abc") (fun _ _ => false) "acme" "default"
      "gpt-4-gizmo-abc" = [] := by decide
  dsimp only
  rw [getRandomSatisfiedChannelWhere_rebuild _ (by decide),hempty]
  rfl

theorem foreign_channel_of_same_model_no_matter :
    let possible (t : Channels) (a : Except SelectError (Option Channel)) :=
      ∃ draw, getRandomSatisfiedChannelWhere (rebuildChannelCache t fun _ _ => false) (fun _ => none) "acme"
        "default" "gpt-4o" 0 none draw = a
    Agree "acme" (sharedOnly "gpt-4o") (withForeign "gpt-4o" "gpt-4o") (fun _ _ => false) (fun _ _ => false)
        (fun _ => none) (fun _ => none) ∧
      ∀ a, possible (sharedOnly "gpt-4o") a ↔ possible (withForeign "gpt-4o" "gpt-4o") a := by
  intro possible
  have hagr := agree_withForeign "gpt-4o" "gpt-4o"
  refine ⟨hagr,(same_answers_iff (by decide) hagr "default" "gpt-4o" 0 none (by decide)).mpr (.inl ?_)⟩
  exact iff_of_true ⟨_,mem_cons_self,by decide⟩ ⟨_,mem_cons_self,by decide⟩

end LurusHub.ChannelCache
