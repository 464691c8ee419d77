import LurusHub.TaskPoller

/-! When a task that ends as FAILURE is refunded exactly once. Seen from one row, a step does
nothing to it, marks it without a refund, or saves an object over it with or without one; each write
has to fit the row it meets. -/
namespace LurusHub.AsyncTask
open QuotaLedger PreConsume PostConsume Transition KeyedTable Function List

def System.refunded (s : System) (id : ℕ) : List ℤ := (s.refunds.filter fun p => p.1 = id).map Prod.snd

def System.charged (s : System) (id : ℕ) : ℤ := (s.charges.lookup id).getD 0

/-- A row that is FAILURE has been refunded its charge in total; no other row has been refunded. -/
def RefundedOnce (s : System) : Prop :=
  ∀ t ∈ s.tasks.rows, if t.status = taskStatusFailure then (s.refunded t.id).sum = s.charged t.id else s.refunded t.id = []
  deriving Decidable

/-- A write to the row `id`: with a refund, it fails a row that was not failed and refunds its
charge; without one, the row is as failed as it was. -/
def Fits (s : System) (id : ℕ) (fails : Bool) (refund : Option ℤ) : Prop :=
  ∀ row, s.tasks.get? id = some row →
    match refund with
    | none => fails = true ↔ row.status = taskStatusFailure
    | some amount => fails = true ∧ row.status ≠ taskStatusFailure ∧ amount = s.charged id

def sunoRefund (err : Bool) (task : Task) (item : SunoItem) : Option ℤ :=
  if sunoFailed task item = true ∧ err = false ∧ 0 < task.quota then some task.quota else none

def videoRefund (task : Task) (answer : TaskInfo) : Option ℤ :=
  if answer.normalised.status = taskStatusFailure ∧ task.status ≠ taskStatusFailure ∧
    0 < task.quota then some task.quota else none

/-- No row is marked that was not FAILURE already; a Suno save that fails had no refund to make;
every save fits the row it meets. -/
def WritesFit (s : System) : Event → Prop
  | .platform platform updateFails =>
    match s.pass with
    | some p => updateFails = true ∨ ∀ t ∈ s.tasks.rows, t.id ∈ nullTaskIds p platform → t.status = taskStatusFailure
    | none => True
  | .channel channelID found updateFails =>
    match s.pass with
    | some p =>
      match p.taskChannelM.lookup channelID with
      | some taskIDs => found = true ∨ updateFails = true ∨ ∀ t ∈ s.tasks.rows, t.taskID ∈ taskIDs → t.status = taskStatusFailure
      | none => True
    | none => True
  | .sunoItem item updateFails _ =>
    match s.pass with
    | some ⟨_,_,taskM,_,.suno err⟩ =>
      match taskM.get? item.taskID with
      | some task =>
        checkTaskNeedUpdate task item = true →
          if updateFails then sunoRefund err task item = none
          else Fits s task.id (sunoStatus task item = taskStatusFailure) (sunoRefund err task item)
      | none => True
    | _ => True
  | .videoTask answer updateFails _ =>
    match s.pass,answer with
    | some ⟨_,_,taskM,_,.video (taskID::_)⟩,some answer =>
      match taskM.get? taskID with
      | some task =>
        updateFails = false → knownStatus answer.normalised.status = true →
          Fits s task.id (answer.normalised.status = taskStatusFailure) (videoRefund task answer)
      | none => True
    | _,_ => True
  | .fetched name answer updateFails =>
    match s.fetches.get? name,answer with
    | some f,some answer => updateFails = false → Fits s f.task.id ((fetchedTask f.task answer).status = taskStatusFailure) none
    | _,_ => True
  | _ => True

/-! One write. -/

def System.failed? (s : System) (id : ℕ) : Option Bool := (s.tasks.get? id).map fun t => t.status = taskStatusFailure

lemma refundedOnce_iff :
    RefundedOnce s ↔ ∀ id b, s.failed? id = some b → if b then (s.refunded id).sum = s.charged id else s.refunded id = [] := by
  constructor
  · intro h id b hb
    obtain ⟨t,ht,rfl⟩ := Option.map_eq_some_iff.mp hb
    obtain rfl := key_of_get? ht
    simpa using h t (mem_of_get? ht)
  · intro h t ht
    have := h t.id _ (show s.failed? t.id = some (decide (t.status = taskStatusFailure)) by simp [System.failed?,get?_of_mem ht])
    simpa using this

def FitsRow (s : System) (id : ℕ) (failed fails : Bool) : Option ℤ → Prop
  | none => fails = failed
  | some amount => fails = true ∧ failed = false ∧ amount = s.charged id

lemma fits_iff {id : ℕ} (h : s.failed? id = some failed) :
    Fits s id fails refund ↔ FitsRow s id failed fails refund := by
  obtain ⟨t,ht,rfl⟩ := Option.map_eq_some_iff.mp h
  cases refund with
  | none =>
    rw [FitsRow,Bool.eq_iff_iff]
    simp [Fits,ht]
  | some amount => simp [Fits,FitsRow,ht]

inductive Effect (s s' : System) (G : Prop) : Prop
  | quiet (hG : G) (hfailed : s'.failed? = s.failed?) (hrefunds : s'.refunds = s.refunds) (hcharges : s'.charges = s.charges)
  | submitted (hG : G) (id : ℕ) (quota : ℤ) (hnew : s.failed? id = none) (hquota : 0 < quota)
    (hfailed : s'.failed? = Function.update s.failed? id (some false)) (hrefunds : s'.refunds = s.refunds)
    (hcharges : s'.charges = (id,quota)::s.charges)
  | marked (hG : ¬G) (id : ℕ) (hbefore : s.failed? id = some false) (hafter : s'.failed? id = some true)
    (hrefunds : s'.refunds = s.refunds) (hcharges : s'.charges = s.charges)
  | wrote (id : ℕ) (failed fails : Bool) (refund : Option ℤ) (hrow : s.failed? id = some failed)
    (hG : G ↔ FitsRow s id failed fails refund) (hpositive : ∀ amount, refund = some amount → 0 < amount)
    (hfailed : s'.failed? = Function.update s.failed? id (some fails))
    (hrefunds : s'.refunds = (refund.map fun amount => (id,amount)).toList++s.refunds) (hcharges : s'.charges = s.charges)

/-- Every row was charged, and its refunds are that charge once, or none. -/
def Consistent (s : System) : Prop :=
  ∀ id b, s.failed? id = some b → 0 < s.charged id ∧ s.refunded id = if b then [s.charged id] else []

lemma Consistent.refundedOnce (h : Consistent s) : RefundedOnce s := by
  refine refundedOnce_iff.mpr fun id b hb => ?_
  rw [(h id b hb).2]
  cases b <;> simp

section
variable {s s' : System} {G : Prop}

lemma charged_cons (hcharges : s'.charges = s.charges) (id : ℕ) : s'.charged id = s.charged id := by
  rw [System.charged,hcharges]
  rfl

lemma refunded_same (href : s'.refunds = s.refunds) (id : ℕ) : s'.refunded id = s.refunded id := by
  rw [System.refunded,href]
  rfl

lemma refunded_wrote {id : ℕ} {refund : Option ℤ} (href : s'.refunds = (refund.map fun amount => (id,amount)).toList++s.refunds) :
    s'.refunded k = (if k = id then refund.toList else [])++s.refunded k := by
  rw [System.refunded,href]
  cases refund with
  | none => simp [System.refunded]
  | some amount =>
    by_cases hk : k = id
    · simp [System.refunded,hk]
    · simp [System.refunded,hk,Ne.symm hk]

lemma Effect.consistent (he : Effect s s' G) (h : Consistent s) (hkno : ∀ p ∈ s.refunds, s.failed? p.1 ≠ none) (hG : G) :
    Consistent s' := by
  intro k b hk
  cases he with
  | quiet _ hfailed href hcharges =>
    rw [charged_cons hcharges,refunded_same href]
    exact h k b (hfailed ▸ hk)
  | submitted _ id quota hnew hquota hfailed href hcharges =>
    rw [hfailed] at hk
    rw [refunded_same href]
    by_cases hid : k = id
    · subst hid
      rw [update_self,Option.some.injEq] at hk
      subst hk
      have hnone : s.refunded k = [] := by
        rw [System.refunded,map_eq_nil_iff,filter_eq_nil_iff]
        intro p hp hpk
        exact hkno p hp (by simpa using (show p.1 = k by simpa using hpk) ▸ hnew)
      simp [System.charged,hcharges,hquota,hnone]
    · rw [update_of_ne hid] at hk
      have hcha : s'.charged k = s.charged k := by
        rw [System.charged,hcharges,lookup_cons,beq_eq_false_iff_ne.mpr hid]
        rfl
      rw [hcha]
      exact h k b hk
  | marked hno => exact absurd hG hno
  | wrote id failed fails refund hrow hfits hpositive hfailed href hcharges =>
    rw [hfailed] at hk
    rw [charged_cons hcharges,refunded_wrote href]
    by_cases hid : k = id
    · subst hid
      rw [update_self,Option.some.injEq] at hk
      subst hk
      obtain ⟨hcha,hrefunded⟩ := h k failed hrow
      have hfit := hfits.mp hG
      cases refund with
      | none =>
        have hsame : fails = failed := hfit
        simp [hcha,hrefunded,hsame]
      | some amount =>
        obtain ⟨rfl,rfl,rfl⟩ := hfit
        simp [hcha,hrefunded]
    · rw [update_of_ne hid] at hk
      simpa [hid] using h k b hk

lemma Effect.not_refundedOnce (he : Effect s s' G) (h : Consistent s) (hG : ¬G) : ¬RefundedOnce s' := by
  rw [refundedOnce_iff]
  intro honce
  cases he with
  | quiet hyes | submitted hyes => exact hG hyes
  | marked _ id hbefore hafter href hcharges =>
    obtain ⟨hpos,hnone⟩ := h id false hbefore
    have hsum := honce id true hafter
    simp [charged_cons hcharges,refunded_same href,hnone] at hsum
    omega
  | wrote id failed fails refund hrow hfits hpositive hfailed href hcharges =>
    obtain ⟨hpos,hrefunded⟩ := h id failed hrow
    have hrow' := honce id fails (by rw [hfailed,update_self])
    rw [charged_cons hcharges,refunded_wrote href] at hrow'
    refine hG (hfits.mpr ?_)
    cases refund with
    | none => cases failed <;> cases fails <;> simp_all [FitsRow]
    | some amount =>
      cases failed <;> cases fails <;> simp_all [FitsRow]

end

/-! The steps. -/

def System.objects (s : System) : List Task :=
  (s.pass.elim [] fun p => p.tasks++p.taskM.rows)++s.fetches.rows.map Fetch.task

structure Known (s : System) : Prop where
  fresh : ∀ id, s.failed? id ≠ none → id < s.nextID
  refunds : ∀ p ∈ s.refunds, s.failed? p.1 ≠ none
  objects : ∀ t ∈ s.objects, s.failed? t.id ≠ none

section
variable {s s' : System}

variable {G : Prop}

lemma mem_objects : t ∈ s.objects ↔ (∃ p, s.pass = some p ∧ (t ∈ p.tasks ∨ t ∈ p.taskM.rows)) ∨
    ∃ f ∈ s.fetches.rows, f.task = t := by
  cases h : s.pass <;> simp [System.objects,h,or_assoc]

lemma Known.of_same (h : Known s) (hrows : ∀ id, s'.failed? id = none ↔ s.failed? id = none) (hnext : s'.nextID = s.nextID)
    (href : ∀ p ∈ s'.refunds, p ∈ s.refunds ∨ s.failed? p.1 ≠ none)
    (hobjects : ∀ t ∈ s'.objects, s.failed? t.id ≠ none) : Known s' := by
  refine ⟨fun id hid => ?_,fun p hp hnone => ?_,fun t ht hnone => hobjects t ht ((hrows _).mp hnone)⟩
  · rw [hnext]
    exact h.fresh id fun hnone => hid ((hrows id).mpr hnone)
  · rcases href p hp with hold | hrow
    · exact h.refunds p hold ((hrows _).mp hnone)
    · exact hrow ((hrows _).mp hnone)

lemma failed?_of_mem (h : t ∈ s.tasks.rows) : s.failed? t.id = some (decide (t.status = taskStatusFailure)) := by
  simp [System.failed?,get?_of_mem h]

lemma save_failed? (h : s.failed? t.id ≠ none) (htas : s'.tasks = saveTask s.tasks t) :
    s'.failed? = Function.update s.failed? t.id (some (decide (t.status = taskStatusFailure))) := by
  funext id
  rw [System.failed?,htas,saveTask,get?_modify]
  by_cases hid : id = t.id
  · subst hid
    rw [if_pos rfl,update_self]
    cases hrow : s.tasks.get? t.id with
    | none => exact absurd (by simp [System.failed?,hrow]) h
    | some r => rfl
  · rw [if_neg hid,update_of_ne hid]
    rfl

lemma updated_none {id : ℕ} (h : failed? id ≠ none) :
    Function.update failed? id (some b) k = none ↔ failed? k = none := by
  by_cases hk : k = id
  · subst hk
    simp [h]
  · rw [update_of_ne hk]

lemma marks_effect (hstatus : ∀ t, (f t).status = taskStatusFailure)
    (htas : s'.tasks = s.tasks.updateWhere p f hf) (href : s'.refunds = s.refunds) (hcharges : s'.charges = s.charges) :
    Effect s s' (∀ t ∈ s.tasks.rows, p t → t.status = taskStatusFailure) ∧ ∀ id, s'.failed? id = none ↔ s.failed? id = none := by
  have hfailed : ∀ id, s'.failed? id = (s.tasks.get? id).map fun t => p t || decide (t.status = taskStatusFailure) := by
    intro id
    rw [System.failed?,htas,get?_updateWhere,Option.map_map]
    congr 1
    funext t
    by_cases hp : p t <;> simp [hp,hstatus]
  refine ⟨?_,fun id => by rw [hfailed,System.failed?]; simp⟩
  by_cases hG : ∀ t ∈ s.tasks.rows, p t → t.status = taskStatusFailure
  · refine .quiet hG (funext fun id => ?_) href hcharges
    rw [hfailed,System.failed?]
    cases hrow : s.tasks.get? id with
    | none => rfl
    | some t =>
      by_cases hp : p t
      · simp [hG t (mem_of_get? hrow) hp]
      · simp [hp]
  · have hno := hG
    simp only [not_forall] at hno
    obtain ⟨t,ht,hp,hfail⟩ := hno
    refine .marked hG t.id ?_ ?_ href hcharges
    · simpa [failed?_of_mem ht] using hfail
    · simp [hfailed,get?_of_mem ht,hp]

lemma refundTaskQuota_paid (hw : env.userWriteFails = false) :
    (refundTaskQuota env userID channelID quota now b).2 = decide (0 < quota) := by
  rw [refundTaskQuota]
  split
  · next hzero => simp [hzero]
  · next hne =>
    rw [refundTaskCharge,if_neg hne,increaseUserQuota]
    by_cases hneg : quota < 0
    · have hpos : ¬0 < quota := by omega
      simp [hneg,hpos]
    · have hpos : 0 < quota := by omega
      cases hbatch : env.batchUpdateEnabled <;> simp [addUserQuota,hneg,hw,hpos]

lemma updateSunoTask_refunds (hw : cfg.env.userWriteFails = false) (now : ℤ) (err : Bool)
    (task : Task) (item : SunoItem) (b : Books)
    (refunds : List (ℕ × ℤ)) :
    (if (updateSunoTask cfg now err task item b).refunded then (task.id,task.quota)::refunds else refunds) =
      ((sunoRefund err task item).map fun amount => (task.id,amount)).toList++refunds := by
  rw [updateSunoTask,sunoRefund]
  cases hfailed : sunoFailed task item <;> cases err <;> simp [refundTaskQuota_paid hw]
  by_cases hpos : 0 < task.quota <;> simp [hpos]

lemma settledVideoTask_task (now : ℤ) (task : Task) (answer : TaskInfo) (b : Books) :
    (settledVideoTask cfg now task answer b).1.id = task.id ∧
      (settledVideoTask cfg now task answer b).1.status = answer.normalised.status := by
  rw [settledVideoTask]
  dsimp only
  repeat' split
  all_goals exact ⟨rfl,rfl⟩

@[simp] lemma updateVideoSingleTask_id (now : ℤ) (fails : Bool) (task : Task) (answer : TaskInfo) (b : Books) :
    (updateVideoSingleTask cfg now fails task answer b).task.id = task.id := (settledVideoTask_task now task answer b).1

@[simp] lemma updateVideoSingleTask_status (now : ℤ) (fails : Bool) (task : Task) (answer : TaskInfo) (b : Books) :
    (updateVideoSingleTask cfg now fails task answer b).task.status = answer.normalised.status :=
    (settledVideoTask_task now task answer b).2

lemma updateVideoSingleTask_refunded (hw : cfg.env.userWriteFails = false) :
    (updateVideoSingleTask cfg now fails task answer b).refunded = (!fails && (videoRefund task answer).isSome) := by
  have hstatus : (settledVideoTask cfg now task answer b).1.status = _ := (settledVideoTask_task now task answer b).2
  have hrefunded : (updateVideoSingleTask cfg now fails task answer b).refunded =
      decide (fails = false ∧ answer.normalised.status = taskStatusFailure ∧
        task.status ≠ taskStatusFailure ∧ 0 < task.quota) := by
    simp only [updateVideoSingleTask,hstatus]
    split
    · next h => simp [refundTaskQuota_paid hw,h]
    · next h =>
      have hno : ¬(fails = false ∧ answer.normalised.status = taskStatusFailure ∧
        task.status ≠ taskStatusFailure ∧ 0 < task.quota) :=
        fun hyes => h ⟨hyes.1,hyes.2.1,hyes.2.2.2.ne',hyes.2.2.1⟩
      exact (decide_eq_false hno).symm
  rw [hrefunded,videoRefund]
  cases fails with
  | true => simp
  | false => split <;> simp_all

lemma updateVideoSingleTask_refunds (hw : cfg.env.userWriteFails = false) (now : ℤ) (fails : Bool)
    (task : Task) (answer : TaskInfo)
    (b : Books) (refunds : List (ℕ × ℤ)) :
    (if (updateVideoSingleTask cfg now fails task answer b).refunded then (task.id,task.quota)::refunds else refunds) =
      ((if fails then none else videoRefund task answer).map fun amount => (task.id,amount)).toList++refunds := by
  rw [updateVideoSingleTask_refunded hw,videoRefund]
  cases fails with
  | true => rfl
  | false => split <;> rfl

lemma failed?_congr (h : s'.tasks = s.tasks) : s'.failed? = s.failed? := by
  funext id
  rw [System.failed?,h]
  rfl

structure Carries (s s' : System) : Prop where
  charges : s'.charges = s.charges
  next : s'.nextID = s.nextID
  objects : ∀ t ∈ s'.objects, s.failed? t.id ≠ none

def Stepped (s s' : System) (G : Prop) : Prop := Effect s s' G ∧ Known s'

/-- The step of `e` does what its guard says. -/
abbrev Sound (cfg : Settings) (s : System) (e : Event) : Prop := Stepped s (step cfg s e) (WritesFit s e)

lemma quiet_step (h : Known s) (hG : G) (htas : s'.tasks = s.tasks) (href : s'.refunds = s.refunds) (hc : Carries s s') :
    Stepped s s' G := by
  have hfailed := failed?_congr htas
  refine ⟨.quiet hG hfailed href hc.charges,h.of_same (fun id => by rw [hfailed]) hc.next (fun p hp => ?_) hc.objects⟩
  exact .inl (href ▸ hp)

lemma same_step (h : Known s) (hG : G) : Stepped s s G := quiet_step h hG rfl rfl ⟨rfl,rfl,h.objects⟩

lemma saved_step (h : Known s) (ht : s.failed? t.id ≠ none)
    (hG : G ↔ Fits s t.id (t.status = taskStatusFailure) refund) (hpositive : ∀ amount, refund = some amount → 0 < amount)
    (htas : s'.tasks = saveTask s.tasks t) (href : s'.refunds = (refund.map fun amount => (t.id,amount)).toList++s.refunds)
    (hc : Carries s s') : Stepped s s' G := by
  obtain ⟨failed,hrow⟩ := Option.ne_none_iff_exists'.mp ht
  have hfailed := save_failed? ht htas
  refine ⟨.wrote t.id failed _ refund hrow (hG.trans (fits_iff hrow)) hpositive hfailed href hc.charges,?_⟩
  refine h.of_same (fun id => ?_) hc.next (fun p hp => ?_) hc.objects
  · rw [hfailed,updated_none ht]
  · rw [href] at hp
    rcases mem_append.mp hp with hp | hp
    · cases refund with
      | none => cases hp
      | some amount =>
        rw [show p = (t.id,amount) by simpa using hp]
        exact .inr ht
    · exact .inl hp

lemma unsaved_step (h : Known s) {id : ℕ} (ht : s.failed? id ≠ none) (hG : ¬G) (hpositive : 0 < amount)
    (htas : s'.tasks = s.tasks) (href : s'.refunds = (id,amount)::s.refunds) (hc : Carries s s') : Stepped s s' G := by
  obtain ⟨failed,hrow⟩ := Option.ne_none_iff_exists'.mp ht
  have hfailed := failed?_congr htas
  refine ⟨.wrote id failed failed (some amount) hrow (iff_of_false hG ?_) (fun a ha => Option.some.inj ha ▸ hpositive) ?_ href
    hc.charges,?_⟩
  · rintro ⟨htrue,hfal,_⟩
    exact absurd (htrue.symm.trans hfal) (by decide)
  · rw [hfailed,← hrow,update_eq_self]
  · refine h.of_same (fun id => by rw [hfailed]) hc.next (fun p hp => ?_) hc.objects
    rw [href] at hp
    rcases mem_cons.mp hp with rfl | hp
    · exact .inr ht
    · exact .inl hp

section
variable {p : Pass}

lemma Known.of_pass (h : Known s) (hp : s.pass = some p) (ht : t ∈ p.tasks ∨ t ∈ p.taskM.rows) : s.failed? t.id ≠ none :=
  h.objects t (mem_objects.mpr (.inl ⟨p,hp,ht⟩))

lemma Known.of_fetch (h : Known s) (hf : f ∈ s.fetches.rows) : s.failed? f.task.id ≠ none :=
  h.objects _ (mem_objects.mpr (.inr ⟨f,hf,rfl⟩))

lemma forall_objects {P : Task → Prop} (hpass : ∀ p, s.pass = some p → ∀ t, t ∈ p.tasks ∨ t ∈ p.taskM.rows → P t)
    (hfet : ∀ f ∈ s.fetches.rows, P f.task) : ∀ t ∈ s.objects, P t := by
  intro t ht
  rcases mem_objects.mp ht with ⟨p,hp,ht⟩ | ⟨f,hf,rfl⟩
  · exact hpass p hp t ht
  · exact hfet f hf

lemma Known.pass_objects (h : Known s) (hpass : s'.pass = some p') (hfet : s'.fetches = s.fetches)
    (htasks : ∀ t, t ∈ p'.tasks ∨ t ∈ p'.taskM.rows → s.failed? t.id ≠ none) : ∀ t ∈ s'.objects, s.failed? t.id ≠ none := by
  refine forall_objects (fun q hq => ?_) fun f hf => h.of_fetch (hfet ▸ hf)
  obtain rfl : p' = q := Option.some.inj (hpass.symm.trans hq)
  exact htasks

lemma mem_setObject (h : q ∈ (p.setObject taskID o call).taskM.rows) :
    q ∈ p.taskM.rows ∨ q.id = o.id := by
  obtain ⟨r,hr,rfl⟩ := mem_map.mp h
  split
  · exact .inr rfl
  · exact .inl hr

lemma Known.setObject (h : Known s) (hp : s.pass = some p) (hobj : p.taskM.get? taskID = some t)
    (hpass : s'.pass = some (p.setObject taskID o call)) (hfet : s'.fetches = s.fetches) (hid : o.id = t.id) :
    ∀ t ∈ s'.objects, s.failed? t.id ≠ none := by
  refine h.pass_objects hpass hfet fun q hq => ?_
  rcases hq.imp_right mem_setObject with hq | hq | hq
  · exact h.of_pass hp (.inl hq)
  · exact h.of_pass hp (.inr hq)
  · rw [hq,hid]
    exact h.of_pass hp (.inr (mem_of_get? hobj))

end

lemma paid_pos {A B : Prop} {quota : ℤ} [Decidable (A ∧ B ∧ 0 < quota)]
    (h : (if A ∧ B ∧ 0 < quota then some quota else none) = some amount) :
    0 < amount := by
  split at h
  · next hpays => exact Option.some.inj h ▸ hpays.2.2
  · cases h

lemma sunoRefund_pos (h : sunoRefund err task item = some amount) : 0 < amount := paid_pos h

lemma videoRefund_pos (h : videoRefund task answer = some amount) : 0 < amount := paid_pos h

theorem videoRefund_unsaved (h : ¬(fails = false ∧ knownStatus answer.normalised.status)) :
    (if fails then none else videoRefund task answer) = none := by
  cases fails with
  | true => rfl
  | false =>
    have hunk : answer.normalised.status ≠ taskStatusFailure := by
      intro hfail
      simp [knownStatus,hfail] at h
    simp [videoRefund,hunk]

lemma sunoItem_effect (hw : cfg.env.userWriteFails = false) (h : Known s) :
    Sound cfg s (.sunoItem item fails now) := by
  simp only [Sound,step,WritesFit]
  cases hp : s.pass with
  | none => exact same_step h trivial
  | some p =>
    obtain ⟨tasks,platform,taskM,channels,call⟩ := p
    cases call with
    | idle | video ids => exact same_step h trivial
    | suno err =>
      dsimp only
      cases htask : taskM.get? item.taskID with
      | none =>
        exact quiet_step h trivial rfl rfl ⟨rfl,rfl,forall_objects (by simp) fun f hf => h.of_fetch hf⟩
      | some task =>
        dsimp only
        by_cases hneed : checkTaskNeedUpdate task item
        · rw [if_pos hneed]
          have hrefu := updateSunoTask_refunds hw now err task item s.books s.refunds
          have hkno : s.failed? task.id ≠ none := h.of_pass hp (.inr (mem_of_get? htask))
          cases fails with
          | true =>
            cases href : sunoRefund err task item with
            | none =>
              rw [href] at hrefu
              exact quiet_step h (by simp) rfl hrefu ⟨rfl,rfl,h.setObject hp htask rfl rfl rfl⟩
            | some amount =>
              rw [href] at hrefu
              exact unsaved_step h hkno (by simp [hneed]) (sunoRefund_pos href) rfl hrefu
                ⟨rfl,rfl,h.setObject hp htask rfl rfl rfl⟩
          | false =>
            refine saved_step h (t:=(updateSunoTask cfg now err task item s.books).task) hkno ?_
              (fun _ => sunoRefund_pos) rfl hrefu
              ⟨rfl,rfl,h.setObject hp htask rfl rfl rfl⟩
            exact ⟨fun hfits => hfits hneed,fun hfits _ => hfits⟩
        · rw [if_neg hneed]
          exact same_step h fun hyes => absurd hyes hneed

lemma videoTask_effect (hw : cfg.env.userWriteFails = false) (h : Known s) :
    Sound cfg s (.videoTask answer fails now) := by
  simp only [Sound,step,WritesFit]
  cases hp : s.pass with
  | none => exact same_step h trivial
  | some p =>
    obtain ⟨tasks,plat,taskM,chans,call⟩ := p
    have hgoes : ∀ (s' : System) (call : Call), s'.pass = some ⟨tasks,plat,taskM,chans,call⟩ → s'.fetches = s.fetches →
        ∀ t ∈ s'.objects, s.failed? t.id ≠ none :=
      fun s' call hpass hfet => h.pass_objects hpass hfet fun t ht => h.of_pass hp ht
    cases call with
    | idle | suno err => cases answer <;> exact same_step h trivial
    | video ids =>
      cases ids with
      | nil => cases answer <;> exact same_step h trivial
      | cons taskID rest =>
        cases answer with
        | none =>
          dsimp only
          cases taskM.get? taskID <;> exact quiet_step h trivial rfl rfl ⟨rfl,rfl,hgoes _ _ rfl rfl⟩
        | some answer =>
          dsimp only
          cases htask : taskM.get? taskID with
          | none => exact quiet_step h trivial rfl rfl ⟨rfl,rfl,hgoes _ _ rfl rfl⟩
          | some task =>
            dsimp only
            have href := updateVideoSingleTask_refunds hw now fails task answer s.books s.refunds
            have hkno : s.failed? (updateVideoSingleTask cfg now fails task answer s.books).task.id ≠ none := by
              rw [updateVideoSingleTask_id]
              exact h.of_pass hp (.inr (mem_of_get? htask))
            rw [updateVideoSingleTask_status]
            by_cases hsav : fails = false ∧ knownStatus answer.normalised.status
            · obtain ⟨rfl,hstatus⟩ := hsav
              have hpositive : ∀ amount, videoRefund task answer = some amount → 0 < amount := fun _ => videoRefund_pos
              refine saved_step h (t:=(updateVideoSingleTask cfg now false task answer s.books).task) hkno ?_ hpositive ?_ ?_
                ⟨rfl,rfl,h.setObject hp htask rfl rfl (updateVideoSingleTask_id ..)⟩
              · simp [hstatus]
              · simp [hstatus]
              · rw [updateVideoSingleTask_id]
                exact href
            · have huns : (fails || !knownStatus answer.normalised.status) := by
                cases fails <;> simp_all
              rw [videoRefund_unsaved hsav] at href
              exact quiet_step h (fun hok hstatus => absurd ⟨hok,hstatus⟩ hsav) (if_pos huns) href
                ⟨rfl,rfl,h.setObject hp htask rfl rfl (updateVideoSingleTask_id ..)⟩

section
variable (h : Known s)
include h

lemma marks_step (p : Task → Bool) (f : Task → Task) (hf : ∀ t, (f t).id = t.id)
    (hstatus : ∀ t, (f t).status = taskStatusFailure) (htas : s'.tasks = s.tasks.updateWhere p f hf)
    (hG : G ↔ ∀ t ∈ s.tasks.rows, p t → t.status = taskStatusFailure) (href : s'.refunds = s.refunds)
    (hc : Carries s s') : Stepped s s' G := by
  have hmar := marks_effect hstatus htas href hc.charges
  rw [propext hG]
  exact ⟨hmar.1,h.of_same hmar.2 hc.next (fun p hp => .inl (href ▸ hp)) hc.objects⟩

lemma platform_effect (plat : String) (fails : Bool) :
    Sound cfg s (.platform plat fails) := by
  simp only [Sound,step,WritesFit]
  cases hp : s.pass with
  | none => exact same_step h trivial
  | some p =>
    have hobjects : ∀ s' : System, s'.pass = some (openPlatform p plat) → s'.fetches = s.fetches →
        ∀ t ∈ s'.objects, s.failed? t.id ≠ none := by
      intro s' hpass hfet
      refine h.pass_objects hpass hfet fun t ht => ?_
      rcases ht.imp_right mem_foldl_put with ht | hnil | ht
      · exact h.of_pass hp (.inl (mem_filter.mp ht).1)
      · cases hnil
      · exact h.of_pass hp (.inl (mem_filter.mp ht).1)
    cases fails with
    | true => exact quiet_step h (.inl rfl) rfl rfl ⟨rfl,rfl,hobjects _ rfl rfl⟩
    | false =>
      exact marks_step h (fun t => decide (t.id ∈ nullTaskIds p plat)) failTask (fun _ => rfl) (fun _ => rfl) rfl (by simp) rfl
        ⟨rfl,rfl,hobjects _ rfl rfl⟩

lemma channel_effect (channelID : ℕ) (found fails : Bool) :
    Sound cfg s (.channel channelID found fails) := by
  simp only [Sound,step,WritesFit]
  cases hp : s.pass with
  | none => exact same_step h trivial
  | some p =>
    have hobjects : ∀ (s' : System) (chans : List (ℕ × List String)) (call : Call),
        s'.pass = some { p with taskChannelM := chans, call } → s'.fetches = s.fetches →
          ∀ t ∈ s'.objects, s.failed? t.id ≠ none :=
      fun s' chans call hpass hfet => h.pass_objects hpass hfet fun t ht => h.of_pass hp ht
    dsimp only
    cases p.taskChannelM.lookup channelID with
    | none => exact same_step h trivial
    | some taskIDs =>
      cases found with
      | true => exact quiet_step h (.inl rfl) rfl rfl ⟨rfl,rfl,hobjects _ _ _ rfl rfl⟩
      | false =>
        cases fails with
        | true => exact quiet_step h (.inr (.inl rfl)) rfl rfl ⟨rfl,rfl,hobjects _ _ _ rfl rfl⟩
        | false =>
          exact marks_step h (fun t => decide (t.taskID ∈ taskIDs)) (fun t => { failTask t with failReason := channelGone p.platform channelID }) (fun _ => rfl) (fun _ => rfl) rfl (by simp) rfl
            ⟨rfl,rfl,hobjects _ _ _ rfl rfl⟩

lemma submit_effect (info : RelayInfo) (t : Task) (now : ℤ) (hquota : 0 < t.quota) :
    Sound cfg s (.submit info t now) := by
  have hnew : s.failed? s.nextID = none := by
    by_contra hold
    exact lt_irrefl _ (h.fresh _ hold)
  have hfailed : (step cfg s (.submit info t now)).failed? = update s.failed? s.nextID (some false) := by
    funext id
    rw [System.failed?,step,get?_put]
    by_cases hid : id = s.nextID
    · rw [if_pos (show id = (initTask s info t now).id from hid),hid,update_self]
      rfl
    · rw [if_neg (show id ≠ (initTask s info t now).id from hid),update_of_ne hid]
      rfl
  have hkeeps : ∀ id, s.failed? id ≠ none → (step cfg s (.submit info t now)).failed? id ≠ none := by
    intro id hid
    have hother : id ≠ s.nextID := fun heq => hid (heq ▸ hnew)
    rw [hfailed,update_of_ne hother]
    exact hid
  refine ⟨.submitted trivial s.nextID t.quota hnew hquota hfailed rfl rfl,fun id hid => ?_,fun p hp => hkeeps _ (h.refunds p hp),
    fun o ho => hkeeps _ (h.objects o ho)⟩
  show id < s.nextID+1
  by_cases heq : id = s.nextID
  · omega
  · rw [hfailed,update_of_ne heq] at hid
    have := h.fresh id hid
    omega

lemma load_effect : Sound cfg s .load := by
  refine quiet_step h trivial rfl rfl ⟨rfl,rfl,h.pass_objects rfl rfl fun t ht => ?_⟩
  have hrow : t ∈ s.tasks.rows := (mem_filter.mp (mem_of_mem_take (ht.resolve_right nofun))).1
  rw [failed?_of_mem hrow]
  exact Option.some_ne_none _

lemma callEnd_effect : Sound cfg s .callEnd := by
  cases hp : s.pass with
  | none =>
    refine quiet_step h trivial rfl rfl ⟨rfl,rfl,fun t ht => h.objects t ?_⟩
    simpa [System.objects,step,hp] using ht
  | some p =>
    exact quiet_step h trivial rfl rfl ⟨rfl,rfl,
      h.pass_objects (show (step cfg s .callEnd).pass = some { p with call := .idle } by simp [step,hp]) rfl
        fun t ht => h.of_pass hp ht⟩

lemma relayed_effect (log : Log) : Sound cfg s (.relayed log) :=
  quiet_step h trivial rfl rfl ⟨rfl,rfl,h.objects⟩

lemma fetch_effect (name userID : ℕ) (taskID : String) :
    Sound cfg s (.fetch name userID taskID) := by
  simp only [Sound,step]
  split
  · exact same_step h trivial
  · cases hrow : s.tasks.rows.find? fun t => t.userID = userID && t.taskID = taskID with
    | none => exact same_step h trivial
    | some t =>
      dsimp only
      split
      · refine quiet_step h trivial rfl rfl ⟨rfl,rfl,forall_objects (fun p hp t ht => h.of_pass hp ht) fun f hf => ?_⟩
        rcases mem_put.mp hf with rfl | ⟨hf,_⟩
        · rw [failed?_of_mem (mem_of_find?_eq_some hrow)]
          exact Option.some_ne_none _
        · exact h.of_fetch hf
      · exact same_step h trivial

lemma fetched_effect (name : ℕ) (answer : Option TaskInfo) (fails : Bool) :
    Sound cfg s (.fetched name answer fails) := by
  have hobjects : ∀ s' : System, s'.pass = s.pass → s'.fetches = s.fetches.delete name →
    ∀ t ∈ s'.objects, s.failed? t.id ≠ none := by
    intro s' hpass hfet
    refine forall_objects (fun p hp t ht => h.of_pass (hpass ▸ hp) ht) fun f hf => ?_
    rw [hfet] at hf
    exact h.of_fetch (mem_delete.mp hf).1
  simp only [Sound,step,WritesFit]
  cases hf : s.fetches.get? name with
  | none => cases answer <;> exact quiet_step h trivial rfl rfl ⟨rfl,rfl,hobjects _ rfl rfl⟩
  | some f =>
    cases answer with
    | none => exact quiet_step h trivial rfl rfl ⟨rfl,rfl,hobjects _ rfl rfl⟩
    | some answer =>
      cases fails with
      | true => exact quiet_step h (by simp) rfl rfl ⟨rfl,rfl,hobjects _ rfl rfl⟩
      | false =>
        have hpositive : ∀ amount : ℤ, none = some amount → 0 < amount := by simp
        refine saved_step h (t:=fetchedTask f.task answer)
          (h.of_fetch (mem_of_get? hf)) ?_ hpositive rfl rfl ⟨rfl,rfl,hobjects _ rfl rfl⟩
        exact ⟨fun hfits => hfits rfl,fun hfits _ => hfits⟩

end

def Charges : Event → Prop
  | .submit _ t _ => 0 < t.quota
  | _ => True

lemma step_effect (hw : cfg.env.userWriteFails = false) (h : Known s) (e : Event) (hcharges : Charges e) :
    Sound cfg s e := by
  cases e with
  | submit => exact submit_effect h _ _ _ hcharges
  | relayed => exact relayed_effect h _
  | load => exact load_effect h
  | platform => exact platform_effect h _ _
  | channel => exact channel_effect h _ _ _
  | sunoItem => exact sunoItem_effect hw h
  | videoTask => exact videoTask_effect hw h
  | callEnd => exact callEnd_effect h
  | fetch => exact fetch_effect h _ _ _
  | fetched => exact fetched_effect h _ _ _

end

/-! Whole runs. -/

def start (b : Books) : System := { books := b }

lemma start_consistent : Consistent (start b) ∧ Known (start b) :=
  ⟨nofun,fun _ h => absurd rfl h,nofun,nofun⟩

/-- Failed rows, and no others, are refunded exactly if each write fits the row it meets. -/
theorem refunded_once_iff (cfg : Settings) (hw : cfg.env.userWriteFails = false) (b : Books) (events : List Event)
    (hcharges : ∀ e ∈ events, Charges e) :
    Always (step cfg) RefundedOnce (start b) events ↔ Along (step cfg) WritesFit (start b) events := by
  refine always_iff_along_under (I := fun s => Consistent s ∧ Known s) (H := fun _ e => Charges e) ?_ ?_ ?_ start_consistent ?_
  · rintro s e ⟨hcons,hkno⟩ hcharge hfits
    have heff := step_effect hw hkno e hcharge
    exact ⟨heff.1.consistent hcons hkno.refunds hfits,heff.2⟩
  · rintro s ⟨hcons,_⟩
    exact hcons.refundedOnce
  · rintro s e ⟨hcons,hkno⟩ hcharge hno
    exact (step_effect hw hkno e hcharge).1.not_refundedOnce hcons hno
  · exact along_of_forall (fun e he _ => hcharges e he) _

/-! Runs of one task of user 1 on channel 7, charged 500. -/

def payer : RelayInfo := ⟨1,9,false,false,0,0,false,false,0,0⟩

def payerBooks : Books :=
  { ledger := ⟨fun id => if id = 1 then some 10000 else none,fun id => if id = 9 then some ⟨8000,0,"t1"⟩ else none,fun _ => 0,fun _ => 0,.empty⟩ }

def submission (taskID platform : String) : Event := .submit payer ⟨0,taskID,platform,1,"",7,500,"","",0,0,0,"",""⟩ 100

def channelDeleted : List Event := [submission "t" "kling",.load,.platform "kling" false,.channel 7 false false]

def taskIDEmpty : List Event := [submission "" "kling",.load,.platform "kling" false]

def fetchedFailure : List Event := [submission "t" "kling",.fetch 1 1 "t",.fetched 1 (some { status := taskStatusFailure }) false]

/-- The save after a refund fails, so that the next pass refunds again. -/
def sunoSaveFails : List Event :=
  [submission "t" "suno",.load,.platform "suno" false,.channel 7 true false,.sunoItem
    { taskID := "t", status := taskStatusFailure } true 200,
    .load,.platform "suno" false,.channel 7 true false,.sunoItem { taskID := "t", status := taskStatusFailure } false 300]

theorem not_refunded_once : (¬RefundedOnce (run (step {}) (start payerBooks) channelDeleted) ∧
      (run (step {}) (start payerBooks) channelDeleted).tasks.rows.map Task.status = [taskStatusFailure] ∧
      (run (step {}) (start payerBooks) channelDeleted).refunded 1 = []) ∧
    ¬RefundedOnce (run (step {}) (start payerBooks) taskIDEmpty) ∧
    ¬RefundedOnce (run (step {}) (start payerBooks) fetchedFailure) ∧
    (run (step {}) (start payerBooks) sunoSaveFails).refunded 1 = [500,500] := by
  decide +kernel

theorem refunded_once_polled :
    let events : List Event :=
      [submission "t" "kling",submission "u" "kling",.load,.platform "kling" false,.channel 7 true false,
        .videoTask (some { status := taskStatusFailure }) false 200,.videoTask
          (some { status := taskStatusInProgress }) false 201]
    (run (step {}) (start payerBooks) events).refunds = [(1,500)] ∧ Along (step {}) WritesFit (start payerBooks) events := by
  intro events
  have hcharges : ∀ e ∈ events, Charges e := by
    intro e he
    simp only [events,mem_cons,not_mem_nil,or_false] at he
    rcases he with rfl | rfl | rfl | rfl | rfl | rfl | rfl <;> simp [Charges,submission]
  exact ⟨by decide +kernel,(refunded_once_iff {} rfl payerBooks events hcharges).mp (by decide +kernel)⟩

end LurusHub.AsyncTask
