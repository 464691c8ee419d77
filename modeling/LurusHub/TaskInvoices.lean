import LurusHub.KeyedTotals
import LurusHub.SettledCost
import LurusHub.TaskRefunds

/-! Whether the consume rows of a user's tasks add up to what the tasks took from the balance and to
what they cost in the end. Each step moves the three sums; a refund moves no row, and a
re-settlement moves the row that it finds. -/
namespace LurusHub.AsyncTask
open QuotaLedger PreConsume PostConsume SettledCost Transition KeyedTable Option

def billed (userID : ℕ) (l : Log) : ℤ := if l.logType = .consume ∧ l.userID = userID ∧ l.ofTask = true then l.quota else 0

def Books.invoiced (b : Books) (userID : ℕ) : ℤ := b.logs.total (billed userID)

def Books.balance (b : Books) (userID : ℕ) : Option ℤ := b.ledger.balances.user userID

/-- What a task costs the user; a failed one costs nothing. -/
def cost (userID : ℕ) (t : Task) : ℤ := if t.userID = userID ∧ t.status ≠ taskStatusFailure then t.quota else 0

def System.cost (s : System) (userID : ℕ) : ℤ := s.tasks.total (AsyncTask.cost userID)

/-- Since the books `b` the tasks took from the balance what they are invoiced at, which is what they cost. -/
def Agrees (b : Books) (userID : ℕ) (s : System) : Prop :=
  s.books.balance userID = (b.balance userID).map (·-s.books.invoiced userID) ∧ s.books.invoiced userID = s.cost userID
  deriving Decidable

def NoDatabaseFailure (env : PostEnv) : Prop := env.userWriteFails = false ∧ env.tokenWriteFails = false

/-- The object of an answer is the stored row, and it has not ended. -/
def Current (s : System) (task : Task) : Prop :=
  s.tasks.get? task.id = some task ∧ task.status ≠ taskStatusSuccess ∧ task.status ≠ taskStatusFailure
  deriving Decidable

/-- The poller alone ends tasks, each once, and its saves succeed. -/
def PolledOnce (userID : ℕ) (s : System) : Event → Prop
  | .submit info t _ => info.userId = userID → 0 ≤ t.quota
  | .sunoItem item updateFails _ =>
    updateFails = false ∧ match s.pass with
      | some ⟨_,_,taskM,_,.suno _⟩ => ∀ task ∈ taskM.get? item.taskID, checkTaskNeedUpdate task item = true → Current s task
      | _ => True
  | .videoTask _ updateFails _ =>
    updateFails = false ∧ match s.pass with
      | some ⟨_,_,taskM,_,.video (taskID::_)⟩ => ∀ task ∈ taskM.get? taskID, Current s task
      | _ => True
  | .fetch _ _ _ | .fetched _ _ _ => False
  | _ => True

instance (userID : ℕ) (s : System) (e : Event) : Decidable (PolledOnce userID s e) := by
  delta PolledOnce
  cases e with
  | sunoItem item updateFails now => exact @instDecidableAnd _ _ _ (by split <;> infer_instance)
  | videoTask answer updateFails now => exact @instDecidableAnd _ _ _ (by split <;> infer_instance)
  | _ => dsimp only; infer_instance

/-- The rows that the estimate of a task finds name one key that is still there, and the newest of them is of a task. -/
def FindsTaskRow (b : Books) (task : Task) (now : ℤ) : Prop :=
  (resolveTaskChargeLedger b task.userID task.channelID task.quota (resettleSince task.submitTime now)).isSome = true ∧
    ((chargeRows b task.userID task.channelID task.quota (resettleSince task.submitTime now)).head?.map Log.ofTask) = some true
  deriving Decidable

/-- No task of the user that costs something fails, and a re-settlement of one finds the row of a task. -/
def Invoiced (cfg : Settings) (userID : ℕ) (s : System) : Event → Prop
  | .platform platform updateFails =>
    match s.pass with
    | some p => updateFails = true ∨ ∀ t ∈ s.tasks.rows, t.id ∈ nullTaskIds p platform → cost userID t = 0
    | none => True
  | .channel channelID found updateFails =>
    match s.pass with
    | some p =>
      match p.taskChannelM.lookup channelID with
      | some taskIDs => found = true ∨ updateFails = true ∨ ∀ t ∈ s.tasks.rows, t.taskID ∈ taskIDs → cost userID t = 0
      | none => True
    | none => True
  | .sunoItem item _ _ =>
    match s.pass with
    | some ⟨_,_,taskM,_,.suno _⟩ =>
      match taskM.get? item.taskID with
      | some task => checkTaskNeedUpdate task item = true → sunoFailed task item = true → cost userID task = 0
      | none => True
    | _ => True
  | .videoTask answer _ now =>
    match s.pass,answer with
    | some ⟨_,_,taskM,_,.video (taskID::_)⟩,some answer =>
      match taskM.get? taskID with
      | some task =>
        (answer.normalised.status = taskStatusFailure → cost userID task = 0) ∧
        (answer.normalised.status = taskStatusSuccess → task.userID = userID → ∀ actualQuota,
          resettledQuota cfg task answer.normalised = some actualQuota → actualQuota ≠ task.quota → FindsTaskRow s.books task now)
      | none => True
    | _,_ => True
  | _ => True

/-! The books. -/

def Books.Numbered (b : Books) : Prop := ∀ l ∈ b.logs.rows, l.id < b.nextLogID

structure Moves (userID : ℕ) (b b' : Books) (invoiced taken : ℤ) : Prop where
  invoiced : b'.invoiced userID = b.invoiced userID+invoiced
  balance : b'.balance userID = (b.balance userID).map (·-taken)
  numbered : b'.Numbered

lemma Moves.trans (h : Moves u b b' i t) (h' : Moves u b' b'' i' t') : Moves u b b'' (i+i') (t+t') := by
  refine ⟨by rw [h'.invoiced,h.invoiced,add_assoc],?_,h'.numbered⟩
  rw [h'.balance,h.balance,map_map]
  congr 1
  funext x
  show x-t-t' = x-(t+t')
  omega

lemma moves_of_balance (hn : b.Numbered) (hlogs : b'.logs = b.logs) (hnext : b'.nextLogID = b.nextLogID)
    (hbala : b'.balance u = (b.balance u).map (·-t)) : Moves u b b' 0 t := by
  refine ⟨by rw [Books.invoiced,hlogs,add_zero]; rfl,hbala,?_⟩
  rw [Books.Numbered,hlogs,hnext]
  exact hn

lemma moves_refl (hn : b.Numbered) : Moves u b b 0 0 := moves_of_balance hn rfl rfl (by simp)

lemma addLog_moves (hn : b.Numbered) (l : Log) : Moves u b (b.addLog l) (billed u l) 0 := by
  have hfresh := get?_eq_none.mpr fun r hr => (hn r hr).ne
  refine ⟨total_put_of_none hfresh (billed u),by simp [Books.balance,Books.addLog],fun r hr => ?_⟩
  show r.id < b.nextLogID+1
  rcases mem_put.mp hr with rfl | ⟨hr,_⟩
  · exact Nat.lt_succ_self _
  · exact (hn r hr).trans (Nat.lt_succ_self _)

lemma recordLog_moves (hn : b.Numbered) : Moves u b (b.recordLog userID now) 0 0 := addLog_moves hn _

def share (u userID : ℕ) (quota : ℤ) : ℤ := if userID = u then quota else 0

lemma chargeUser_user (l : Balances) :
    (l.chargeUser userID quota).user u = (l.user u).map (·-share u userID quota) := by
  by_cases hu : userID = u
  · subst hu
    simp [share]
  · simp [Balances.chargeUser,share,hu,Ne.symm hu]

lemma postConsumeQuota_moves (hw : NoDatabaseFailure env) (hn : b.Numbered) (info : RelayInfo) (quota : ℤ) :
    ∃ b', b.postConsumeQuota env info quota = (b',none) ∧ b'.logs = b.logs ∧ Moves u b b' 0 (share u info.userId quota) := by
  obtain ⟨l₁,-,hbala,hnone⟩ := postConsumeQuota_legs hw.1 hw.2 quota 0 ⟨b.ledger,info,b.platform⟩
  refine ⟨_,Prod.ext rfl hnone,rfl,moves_of_balance hn rfl rfl ?_⟩
  rw [Books.balance,Books.postConsumeQuota,hbala]
  exact chargeUser_user _

lemma chargeSubmission_moves (hw : NoDatabaseFailure env) (hn : b.Numbered) :
    Moves u b (chargeSubmission env true info channelID quota now b) (share u info.userId quota) (share u info.userId quota) := by
  obtain ⟨b₁,hb,-,hcharge⟩ := postConsumeQuota_moves (u:=u) hw hn info quota
  rw [chargeSubmission,hb]
  by_cases hzero : quota = 0
  · simpa [hzero,share] using hcharge
  · have hlog := addLog_moves (u:=u) hcharge.numbered ⟨0,.consume,info.userId,channelID,info.tokenId,quota,now,true⟩
    have hboth := (hcharge.trans hlog).trans (moves_refl hlog.numbered)
    simp only [hzero]
    refine ⟨hboth.invoiced.trans ?_,hboth.balance.trans ?_,hlog.numbered⟩
    · simp [billed,share]
    · simp

def KeepsRows (b b' : Books) : Prop := ∀ id row, b.logs.get? id = some row → b'.logs.get? id = some row

lemma addLog_keeps (hn : b.Numbered) : KeepsRows b (b.addLog l) := by
  intro id row hrow
  have hne : id ≠ b.nextLogID := by
    rintro rfl
    exact (hn row (mem_of_get? hrow)).ne (key_of_get? hrow)
  rw [Books.addLog,get?_put,if_neg hne]
  exact hrow

lemma creditTaskLedgers_frame : (creditTaskLedgers env ledger quota reason b).logs = b.logs ∧
    (creditTaskLedgers env ledger quota reason b).nextLogID = b.nextLogID ∧
    (creditTaskLedgers env ledger quota reason b).balance u = b.balance u := by
  rw [creditTaskLedgers]
  split
  · exact ⟨rfl,rfl,rfl⟩
  · refine ⟨rfl,rfl,?_⟩
    cases hwri : increaseTokenQuota env.batchUpdateEnabled env.tokenWriteFails b.ledger ledger.tokenID quota with
    | error e =>
      dsimp only
      split
      · rfl
      · split <;> rfl
    | ok l =>
      have huser := congrFun (congrArg Balances.user (increaseTokenQuota_ok hwri)) u
      dsimp only
      split
      · exact huser
      · split <;> exact huser

lemma increaseUserQuota_pos (hw : NoDatabaseFailure env) (hpos : 0 < quota) :
    ∃ l', increaseUserQuota env.batchUpdateEnabled env.userWriteFails l userID quota = .ok l' := by
  have hneg : ¬quota < 0 := by omega
  cases hbatch : env.batchUpdateEnabled <;> simp [increaseUserQuota,addUserQuota,hneg,hw.1]

lemma refundTaskCharge_moves (hw : NoDatabaseFailure env) (hn : b.Numbered) (hpos : 0 < quota)
    (reason : String) :
    (refundTaskCharge env userID channelID quota now ledger reason b).2 ∧
    Moves u b (refundTaskCharge env userID channelID quota now ledger reason b).1 0 (share u userID (-quota)) ∧
    KeepsRows b (refundTaskCharge env userID channelID quota now ledger reason b).1 := by
  obtain ⟨l,hl⟩ := increaseUserQuota_pos hw hpos
  rw [refundTaskCharge,if_neg hpos.ne',hl]
  refine ⟨rfl,?_⟩
  have hpaid : l.balances.user u = (b.balance u).map (·-share u userID (-quota)) := by
    rw [increaseUserQuota_ok hl]
    exact chargeUser_user _
  -- the hand-back on key and pool touches neither the rows nor the balance
  have hpays : ∀ b₁ : Books, b₁.logs = b.logs ∧ b₁.nextLogID = b.nextLogID ∧ b₁.balance u = l.balances.user u →
      Moves u b (b₁.recordLog userID now) 0 (share u userID (-quota)) ∧ KeepsRows b (b₁.recordLog userID now) := by
    rintro b₁ ⟨hlogs,hnext,hbala⟩
    have hmove := moves_of_balance hn hlogs hnext (hbala.trans hpaid)
    refine ⟨by simpa using hmove.trans (recordLog_moves hmove.numbered),fun id row hrow => ?_⟩
    exact addLog_keeps hmove.numbered id row (hlogs ▸ hrow)
  cases ledger with
  | none => exact hpays _ ⟨rfl,rfl,rfl⟩
  | some ledger => exact hpays _ creditTaskLedgers_frame

theorem refundTaskQuota_moves (hw : NoDatabaseFailure env) (hn : b.Numbered) :
    Moves u b (refundTaskQuota env userID channelID quota now b).1 0 (if 0 < quota then share u userID (-quota) else 0) := by
  rw [refundTaskQuota]
  by_cases hzero : quota = 0
  · simpa [hzero] using moves_refl hn
  · rw [if_neg hzero]
    by_cases hpos : 0 < quota
    · rw [if_pos hpos]
      exact (refundTaskCharge_moves hw hn hpos _).2.1
    · have hneg : quota < 0 := by omega
      simpa [refundTaskCharge,hzero,increaseUserQuota,hneg,hpos] using recordLog_moves hn

lemma resolveTaskChargeLedger_some
    (h : resolveTaskChargeLedger b userID channelID quota since = some ledger) :
    ∃ row rows, chargeRows b userID channelID quota since = row::rows ∧ ledger.logID = row.id := by
  rw [resolveTaskChargeLedger] at h
  split at h
  · cases h
  · split at h
    · cases h
    · next row rows hrows =>
      split at h
      · obtain ⟨tok,_,rfl⟩ := map_eq_some_iff.mp h
        exact ⟨row,rows,hrows,rfl⟩
      · cases h

lemma mem_chargeRows (h : row ∈ chargeRows b userID channelID quota since) :
    row ∈ b.logs.rows ∧ row.logType = .consume ∧ row.userID = userID ∧ row.quota = quota := by
  have hmem := List.mem_filter.mp (List.mem_reverse.mp (List.mem_of_mem_take h))
  simp only [Bool.and_eq_true,decide_eq_true_eq] at hmem
  exact ⟨hmem.1,hmem.2.1.1.1.1.1,hmem.2.1.1.1.1.2,hmem.2.1.1.2⟩

lemma rewriteTaskConsumeRow_moves (hn : b.Numbered) (hrow : b.logs.get? ledger.logID = some row)
    (hcon : row.logType = .consume) (actual : ℤ) :
    (rewriteTaskConsumeRow (some ledger) actual b).2 ∧
    Moves u b (rewriteTaskConsumeRow (some ledger) actual b).1
    (if row.ofTask then share u row.userID (actual-row.quota) else 0) 0 := by
  rw [rewriteTaskConsumeRow,if_pos (by rw [hrow]; rfl)]
  refine ⟨rfl,?_,by simp [Books.balance],fun l hl => ?_⟩
  · rw [Books.invoiced,total_modify hrow]
    congr 1
    cases htask : row.ofTask <;> simp [billed,share,hcon,htask]
    split <;> rfl
  · obtain ⟨r,hr,rfl⟩ := List.mem_map.mp hl
    split
    · exact hn r hr
    · exact hn r hr

lemma resettleMoney_moves (hw : NoDatabaseFailure env) (hn : b.Numbered) (userID channelID : ℕ) (hdelta : delta ≠ 0) (now : ℤ)
    (ledger : Option TaskChargeLedger) :
    ∃ b₁, resettleMoney env userID channelID ledger delta now b = (b₁,true) ∧
    Moves u b b₁ 0 (share u userID delta) ∧ KeepsRows b b₁ := by
  rw [resettleMoney]
  by_cases hpos : 0 < delta
  · obtain ⟨b₁,hb,hlogs,hmove⟩ := postConsumeQuota_moves hw hn
      ⟨userID,(ledger.map (·.tokenID)).getD 0,false,false,0,0,false,false,0,0⟩ delta
    rw [if_pos hpos,hb]
    exact ⟨_,rfl,⟨hmove.invoiced,hmove.balance,hmove.numbered⟩,fun id row hrow => (hlogs ▸ hrow : b₁.logs.get? id = some row)⟩
  · rw [if_neg hpos]
    have hback : 0 < -delta := by omega
    obtain ⟨hpaid,hmove,hkeeps⟩ := refundTaskCharge_moves hw hn hback "video_resettle"
    rw [neg_neg] at hmove
    exact ⟨_,Prod.ext rfl hpaid,hmove,hkeeps⟩

lemma resettleVideoTask_moves (hw : NoDatabaseFailure env) (hn : b.Numbered)
    (hne : actual ≠ task.quota) :
    ∃ b', resettleVideoTask env task.userID task.channelID task.submitTime task.quota actual now b = (b',true) ∧
      Moves u b b' (if FindsTaskRow b task now then share u task.userID (actual-task.quota) else 0)
        (share u task.userID (actual-task.quota)) := by
  have hdelta : actual-task.quota ≠ 0 := by omega
  obtain ⟨b₁,hmon,hmove,hkeeps⟩ := resettleMoney_moves hw hn task.userID task.channelID hdelta now
    (resolveTaskChargeLedger b task.userID task.channelID task.quota (resettleSince task.submitTime now))
  rw [resettleVideoTask]
  simp only [if_neg hdelta,hmon]
  cases hledger : resolveTaskChargeLedger b task.userID task.channelID task.quota (resettleSince task.submitTime now) with
  | none =>
    have hno : ¬FindsTaskRow b task now := by simp [FindsTaskRow,hledger]
    rw [rewriteTaskConsumeRow]
    refine ⟨_,rfl,?_⟩
    split
    · simpa using hmove.trans (recordLog_moves hmove.numbered)
    · exact hmove
  | some ledger =>
    obtain ⟨row,rows,hrows,hid⟩ := resolveTaskChargeLedger_some hledger
    have hfound : row ∈ chargeRows b task.userID task.channelID task.quota (resettleSince task.submitTime now) := by simp [hrows]
    obtain ⟨hmem,hcon,huser,hquota⟩ := mem_chargeRows hfound
    have hfin : FindsTaskRow b task now ↔ row.ofTask := by simp [FindsTaskRow,hledger,hrows]
    have hrow := hkeeps _ _ (hid ▸ get?_of_mem hmem)
    obtain ⟨hdone,hrew⟩ := rewriteTaskConsumeRow_moves hmove.numbered hrow hcon actual
    refine ⟨_,rfl,?_⟩
    simp only [hdone,Bool.not_true,Bool.false_and,Bool.false_eq_true,if_false]
    have hboth := hmove.trans hrew
    rw [huser,hquota,zero_add,add_zero] at hboth
    simpa only [hfin] using hboth

/-! The steps. -/

structure Ready (u : ℕ) (s : System) : Prop where
  numbered : s.books.Numbered
  fresh : ∀ t ∈ s.tasks.rows, t.id < s.nextID
  quotas : ∀ t ∈ s.tasks.rows, t.userID = u → 0 ≤ t.quota
  calls : ∀ p, s.pass = some p → p.call ≠ .suno true

structure Shift (u : ℕ) (s s' : System) (invoiced taken cost : ℤ) : Prop where
  books : Moves u s.books s'.books invoiced taken
  cost : s'.cost u = s.cost u+cost

structure Accounted (u : ℕ) (s s' : System) (G : Prop) : Prop where
  sums : ∃ invoiced taken cost, Shift u s s' invoiced taken cost ∧ (G ↔ invoiced = taken ∧ taken = cost)
  ready : Ready u s'

/-- The step of `e` is accounted for by its guard. -/
abbrev Settles (cfg : Settings) (u : ℕ) (s : System) (e : Event) : Prop := Accounted u s (step cfg s e) (Invoiced cfg u s e)

section
variable {s s' : System}

lemma Shift.agrees_iff (hb : (b.balance u).isSome) (h : Agrees b u s) (hs : Shift u s s' i t c) :
    Agrees b u s' ↔ i = t ∧ t = c := by
  obtain ⟨x,hx⟩ := isSome_iff_exists.mp hb
  obtain ⟨hbala,hcost⟩ := h
  rw [Agrees,hs.books.balance,hs.books.invoiced,hs.cost,hbala,hx]
  simp only [map_some,some.injEq]
  omega

lemma cost_nonneg (h : Ready u s) {t : Task} (ht : t ∈ s.tasks.rows) : 0 ≤ cost u t := by
  rw [cost]
  split
  · next hu => exact h.quotas t ht hu.1
  · rfl

lemma Ready.of_rows (h : Ready u s) (hnum : s'.books.Numbered) (hnext : s'.nextID = s.nextID)
    (hrows : ∀ t' ∈ s'.tasks.rows, ∃ t ∈ s.tasks.rows, t'.id = t.id ∧ (t'.userID = u → 0 ≤ t'.quota))
    (hcalls : ∀ p, s'.pass = some p → p.call ≠ .suno true) : Ready u s' := by
  refine ⟨hnum,fun t' ht' => ?_,fun t' ht' => ?_,hcalls⟩
  · obtain ⟨t,ht,hid,_⟩ := hrows t' ht'
    rw [hid,hnext]
    exact h.fresh t ht
  · obtain ⟨t,_,_,hquota⟩ := hrows t' ht'
    exact hquota

variable {G : Prop}

section
variable (h : Ready u s) (hnext : s'.nextID = s.nextID) (hcalls : ∀ p, s'.pass = some p → p.call ≠ .suno true)
include h hnext hcalls

lemma books_step (hG : G) (hmove : Moves u s.books s'.books 0 0) (htas : s'.tasks = s.tasks) : Accounted u s s' G := by
  refine ⟨⟨0,0,0,⟨hmove,?_⟩,by simpa using hG⟩,h.of_rows hmove.numbered hnext (fun t ht => ?_) hcalls⟩
  · rw [System.cost,htas,add_zero]
    rfl
  · rw [htas] at ht
    exact ⟨t,ht,rfl,h.quotas t ht⟩

lemma pass_step (hG : G) (hboo : s'.books = s.books) (htas : s'.tasks = s.tasks) : Accounted u s s' G := by
  refine books_step h hnext hcalls hG ?_ htas
  rw [hboo]
  exact moves_refl h.numbered

lemma save_step (htask : s.tasks.get? task.id = some task) (hid : o.id = task.id) (hquota : o.userID = u → 0 ≤ o.quota)
    (hmove : Moves u s.books s'.books i t) (htas : s'.tasks = saveTask s.tasks o) (hG : G ↔ i = t ∧ t = cost u o-cost u task) :
    Accounted u s s' G := by
  have hcost : s'.cost u = s.cost u+(cost u o-cost u task) := by
    rw [System.cost,htas,saveTask,hid,total_modify htask]
    rfl
  refine ⟨⟨i,t,_,⟨hmove,hcost⟩,hG⟩,h.of_rows hmove.numbered hnext (fun r hr => ?_) hcalls⟩
  rw [htas] at hr
  obtain ⟨q,hq,rfl⟩ := List.mem_map.mp hr
  refine ⟨q,hq,?_⟩
  split
  · exact ⟨rfl,hquota⟩
  · exact ⟨rfl,h.quotas q hq⟩

lemma marked_step (p : Task → Bool) (f : Task → Task) (hf : ∀ t, (f t).id = t.id)
    (hstatus : ∀ t, (f t).status = taskStatusFailure)
    (hsame : ∀ t, (f t).userID = t.userID ∧ (f t).quota = t.quota) (hboo : s'.books = s.books)
    (htas : s'.tasks = s.tasks.updateWhere p f hf) (hG : G ↔ ∀ t ∈ s.tasks.rows, p t → cost u t = 0) : Accounted u s s' G := by
  have hmove : Moves u s.books s'.books 0 0 := by
    rw [hboo]
    exact moves_refl h.numbered
  have hcost : s'.cost u = s.cost u+ -s.tasks.total fun t => if p t then cost u t else 0 := by
    rw [System.cost,htas,total_updateWhere,← total_neg]
    congr 2
    funext t
    by_cases hp : p t <;> simp [hp,cost,hstatus]
  have hzero : (s.tasks.total fun t => if p t then cost u t else 0) = 0 ↔ ∀ t ∈ s.tasks.rows, p t → cost u t = 0 := by
    rw [total_eq_zero_iff]
    · simp
    · intro t ht
      split
      · exact cost_nonneg h ht
      · rfl
  refine ⟨⟨0,0,_,⟨hmove,hcost⟩,?_⟩,h.of_rows hmove.numbered hnext (fun r hr => ?_) hcalls⟩
  · rw [hG,← hzero]
    constructor <;> intro <;> omega
  · rw [htas] at hr
    obtain ⟨q,hq,rfl⟩ := List.mem_map.mp hr
    refine ⟨q,hq,?_⟩
    split
    · rw [(hsame q).1,(hsame q).2]
      exact ⟨hf q,h.quotas q hq⟩
    · exact ⟨rfl,h.quotas q hq⟩

end

lemma not_suno_of_call {p : Pass} (h : p.call ≠ .suno true) : ∀ q, some p = some q → q.call ≠ .suno true := by
  rintro q ⟨⟩
  exact h

lemma idle_step (h : Ready u s) (hG : G) : Accounted u s s G := pass_step h rfl h.calls hG rfl rfl

lemma settleVideoTask_moves (hw : NoDatabaseFailure cfg.env) (hn : b.Numbered) :
    ∃ i, Moves u b (settleVideoTask cfg now task r b).1 i
    (share u task.userID ((settleVideoTask cfg now task r b).2-task.quota)) ∧
      ((task.userID = u → ∀ actual, resettledQuota cfg task r = some actual → actual ≠ task.quota → FindsTaskRow b task now) ↔
        i = share u task.userID ((settleVideoTask cfg now task r b).2-task.quota)) := by
  rw [settleVideoTask]
  cases hquota : resettledQuota cfg task r with
  | none => exact ⟨0,by simpa [share] using moves_refl hn,by simp [share]⟩
  | some actual =>
    dsimp only
    by_cases hne : actual = task.quota
    · have hsame : resettleVideoTask cfg.env task.userID task.channelID task.submitTime task.quota actual now b = (b,false) := by
        simp [resettleVideoTask,hne]
      rw [hsame]
      exact ⟨0,by simpa [share] using moves_refl hn,by simp [share,hne]⟩
    · obtain ⟨b',hb',hmove⟩ := resettleVideoTask_moves hw hn hne
      rw [hb']
      refine ⟨_,hmove,?_⟩
      have hdelta : actual-task.quota ≠ 0 := by omega
      by_cases hfin : FindsTaskRow b task now
      · simp [hfin]
      · by_cases hu : task.userID = u <;> simp [hfin,share,hne,Ne.symm hdelta]

def NonnegPrices (cfg : Settings) : Prop :=
  ∀ model group tokens quota, cfg.actualQuota model group tokens = some quota → 0 ≤ quota

lemma settleVideoTask_quota (hprice : NonnegPrices cfg)
    (hquota : 0 ≤ task.quota) : 0 ≤ (settleVideoTask cfg now task r b).2 := by
  rw [settleVideoTask]
  split
  · exact hquota
  · next actualQuota hpri =>
    have hact : 0 ≤ actualQuota := hprice _ _ _ _ (ite_none_right_eq_some.mp hpri).2
    split
    · exact hact
    · exact hquota

section
variable (cfg : Settings) (now : ℤ) (task : Task) (b : Books)

lemma settledVideoTask_userID : (settledVideoTask cfg now task answer b).1.userID = task.userID := by
  rw [settledVideoTask]
  dsimp only
  repeat' split
  all_goals rfl

lemma settledVideoTask_success (h : answer.normalised.status = taskStatusSuccess) :
    (settledVideoTask cfg now task answer b).2 = (settleVideoTask cfg now task answer.normalised b).1 ∧
      (settledVideoTask cfg now task answer b).1.quota = (settleVideoTask cfg now task answer.normalised b).2 := by
  simp only [settledVideoTask,h]
  exact ⟨rfl,rfl⟩

lemma settledVideoTask_other (h : answer.normalised.status ≠ taskStatusSuccess) :
    (settledVideoTask cfg now task answer b).2 = b ∧ (settledVideoTask cfg now task answer b).1.quota = task.quota := by
  simp only [settledVideoTask,h,if_false]
  repeat' split
  all_goals exact ⟨rfl,rfl⟩

lemma updateVideoSingleTask_books (hsuccess : answer.normalised.status ≠ taskStatusSuccess)
    (hfail : answer.normalised.status ≠ taskStatusFailure) :
    (updateVideoSingleTask cfg now false task answer b).books = b := by
  have hstatus : (settledVideoTask cfg now task answer b).1.status = _ := (settledVideoTask_task now task answer b).2
  simp [updateVideoSingleTask,hstatus,hfail,(settledVideoTask_other cfg now task b hsuccess).1]

end

lemma cost_of_current (h : Current s task) : cost u task = share u task.userID task.quota := by
  simp [cost,share,h.2.2]

theorem refund_fits_iff (hcur : Current s task) (hquota : task.userID = u → 0 ≤ task.quota) (huser : o.userID = task.userID)
    (hsame : o.quota = task.quota) :
    cost u task = 0 ↔ 0 = (if 0 < task.quota then share u task.userID (-task.quota) else 0) ∧
      (if 0 < task.quota then share u task.userID (-task.quota) else 0) = cost u o-cost u task := by
  rw [cost_of_current hcur,cost,huser,hsame]
  by_cases hu : task.userID = u
  · by_cases hpos : 0 < task.quota
    · simp only [share,hu,if_true]
      omega
    · have hzero : task.quota = 0 := by omega
      simp [hzero]
  · simp [share,hu]

lemma updateSunoTask_shift (hw : NoDatabaseFailure cfg.env) (h : Ready u s) (hcur : Current s task) :
    let o := updateSunoTask cfg now false task item s.books
    ∃ t, Moves u s.books o.books 0 t ∧ ((sunoFailed task item → cost u task = 0) ↔
        0 = t ∧ t = cost u o.task-cost u task) := by
  intro o
  have hquota := h.quotas task (mem_of_get? hcur.1)
  cases hfailed : sunoFailed task item with
  | true =>
    have hmove : Moves u s.books o.books 0
        (if 0 < task.quota then share u task.userID (-task.quota) else 0) := by
      simpa [o,updateSunoTask,hfailed] using refundTaskQuota_moves hw h.numbered
    have hfits := refund_fits_iff (o:=o.task) hcur hquota rfl rfl
    exact ⟨_,hmove,fun hG => hfits.mp (hG rfl),fun heq _ => hfits.mpr heq⟩
  | false =>
    have hmove : Moves u s.books o.books 0 0 := by
      simpa [o,updateSunoTask,hfailed] using moves_refl h.numbered
    have hgoes : sunoStatus task item ≠ taskStatusFailure := by
      intro hstatus
      simp [sunoFailed,hstatus] at hfailed
    have hsame : cost u o.task = cost u task := by
      simp [o,cost,updateSunoTask,hgoes,hcur.2.2]
    exact ⟨0,hmove,by simp [hsame]⟩

lemma sunoItem_shift (hw : NoDatabaseFailure cfg.env) (h : Ready u s)
    (hH : PolledOnce u s (.sunoItem item fails now)) :
    Settles cfg u s (.sunoItem item fails now) := by
  obtain ⟨rfl,hH⟩ := hH
  simp only [Settles,step,Invoiced]
  cases hp : s.pass with
  | none => exact idle_step h trivial
  | some p =>
    rw [hp] at hH
    obtain ⟨tasks,platform,taskM,channels,call⟩ := p
    cases call with
    | idle | video ids => exact idle_step h trivial
    | suno err =>
      have herr : err = false := by
        have := h.calls _ hp
        cases err with
        | true => exact absurd rfl this
        | false => rfl
      subst herr
      dsimp only at hH ⊢
      cases htask : taskM.get? item.taskID with
      | none => exact pass_step h rfl (fun p hp => (by simp at hp)) trivial rfl rfl
      | some task =>
        dsimp only
        by_cases hneed : checkTaskNeedUpdate task item
        · rw [if_pos hneed]
          have hcur := hH task htask hneed
          have hquota := h.quotas task (mem_of_get? hcur.1)
          obtain ⟨t,hmove,hG⟩ := updateSunoTask_shift hw h hcur
          refine save_step h rfl (not_suno_of_call (by simp [Pass.setObject]))
            (o:=(updateSunoTask cfg now false task item s.books).task) hcur.1 rfl hquota hmove rfl ?_
          exact ⟨fun hyes => hG.mp (hyes hneed),fun heq _ => hG.mpr heq⟩
        · rw [if_neg hneed]
          exact idle_step h fun hyes => absurd hyes hneed

lemma share_sub : share u userID x-share u userID y = share u userID (x-y) := by
  by_cases hu : userID = u <;> simp [share,hu]

lemma updateVideoSingleTask_shift (hw : NoDatabaseFailure cfg.env) (h : Ready u s) (hcur : Current s task) :
    let o := updateVideoSingleTask cfg now false task answer s.books
    ∃ i t, Moves u s.books o.books i t ∧
      ((answer.normalised.status = taskStatusFailure → cost u task = 0) ∧
        (answer.normalised.status = taskStatusSuccess → task.userID = u → ∀ actual,
          resettledQuota cfg task answer.normalised = some actual → actual ≠ task.quota → FindsTaskRow s.books task now) ↔
        i = t ∧ t = cost u o.task-cost u task) := by
  intro o
  have hquota := h.quotas task (mem_of_get? hcur.1)
  have huser : o.task.userID = task.userID := settledVideoTask_userID cfg now task s.books
  have hstatus : (settledVideoTask cfg now task answer s.books).1.status = _ := (settledVideoTask_task now task answer s.books).2
  by_cases hsuccess : answer.normalised.status = taskStatusSuccess
  · have hnof : answer.normalised.status ≠ taskStatusFailure := by
      rw [hsuccess]
      decide
    obtain ⟨hboo,hsettled⟩ := settledVideoTask_success cfg now task s.books hsuccess
    obtain ⟨i,hmove,hi⟩ := settleVideoTask_moves hw h.numbered
    have hsame : o.books = (settleVideoTask cfg now task answer.normalised s.books).1 := by
      simp [o,updateVideoSingleTask,hstatus,hnof,hboo]
    rw [← hsame] at hmove
    refine ⟨i,_,hmove,?_⟩
    have hcost : cost u o.task-cost u task =
        share u task.userID ((settleVideoTask cfg now task answer.normalised s.books).2-task.quota) := by
      rw [cost_of_current hcur,← share_sub,cost,huser,updateVideoSingleTask_status]
      simp only [hnof,ne_eq,not_false_eq_true,and_true]
      rw [← hsettled]
      rfl
    rw [hcost,← hi]
    simp [hsuccess,show taskStatusSuccess ≠ taskStatusFailure by decide]
  · obtain ⟨hboo,hsettled⟩ := settledVideoTask_other cfg now task s.books hsuccess
    by_cases hfail : answer.normalised.status = taskStatusFailure
    · have hmove : Moves u s.books o.books 0
          (if 0 < task.quota then share u task.userID (-task.quota) else 0) := by
        simp only [o,updateVideoSingleTask,hstatus,hboo]
        by_cases hzero : task.quota = 0
        · simpa [hzero] using moves_refl h.numbered
        · rw [if_pos ⟨trivial,hfail,hzero,hcur.2.2⟩]
          exact refundTaskQuota_moves hw h.numbered
      refine ⟨_,_,hmove,?_⟩
      rw [← refund_fits_iff hcur hquota huser hsettled]
      exact ⟨fun hG => hG.1 hfail,fun hzero => ⟨fun _ => hzero,fun hyes => absurd hyes hsuccess⟩⟩
    · have hcost : cost u o.task = cost u task := by
        rw [cost_of_current hcur,cost,huser,updateVideoSingleTask_status]
        simp only [hfail,ne_eq,not_false_eq_true,and_true]
        rw [← hsettled]
        rfl
      refine ⟨0,0,by rw [updateVideoSingleTask_books cfg now task s.books hsuccess hfail]; exact moves_refl h.numbered,?_⟩
      simp [hfail,hsuccess,hcost]

lemma updateVideoSingleTask_quota (hprice : NonnegPrices cfg)
    (hquota : task.userID = u → 0 ≤ task.quota) (now : ℤ) (answer : TaskInfo) (b : Books)
    (hu : (updateVideoSingleTask cfg now false task answer b).task.userID = u) :
    0 ≤ (updateVideoSingleTask cfg now false task answer b).task.quota := by
  have hnonneg := hquota ((settledVideoTask_userID cfg now task b).symm.trans hu)
  by_cases hsuccess : answer.normalised.status = taskStatusSuccess
  · exact (settledVideoTask_success cfg now task b hsuccess).2 ▸ settleVideoTask_quota hprice hnonneg
  · exact (settledVideoTask_other cfg now task b hsuccess).2 ▸ hnonneg

lemma videoTask_shift (hw : NoDatabaseFailure cfg.env) (hprice : NonnegPrices cfg) (h : Ready u s)
    (fails : Bool) (hH : PolledOnce u s (.videoTask answer fails now)) :
    Settles cfg u s (.videoTask answer fails now) := by
  obtain ⟨rfl,hH⟩ := hH
  simp only [Settles,step,Invoiced]
  cases hp : s.pass with
  | none => exact idle_step h trivial
  | some p =>
    rw [hp] at hH
    obtain ⟨tasks,platform,taskM,channels,call⟩ := p
    cases call with
    | idle | suno err => cases answer <;> exact idle_step h trivial
    | video ids =>
      cases ids with
      | nil => cases answer <;> exact idle_step h trivial
      | cons taskID rest =>
        cases answer with
        | none =>
          dsimp only
          cases taskM.get? taskID <;> exact pass_step h rfl (not_suno_of_call (by simp)) trivial rfl rfl
        | some answer =>
          dsimp only at hH ⊢
          cases htask : taskM.get? taskID with
          | none => exact pass_step h rfl (not_suno_of_call (by simp)) trivial rfl rfl
          | some task =>
            have hcur := hH task htask
            have hquota := h.quotas task (mem_of_get? hcur.1)
            obtain ⟨i,t,hmove,hG⟩ := updateVideoSingleTask_shift hw h hcur
            have hsettled := updateVideoSingleTask_quota hprice hquota now answer s.books
            by_cases hkno : knownStatus answer.normalised.status
            · refine save_step h rfl (not_suno_of_call (by simp [Pass.setObject])) hcur.1
                (updateVideoSingleTask_id ..) hsettled hmove ?_ hG
              simp [hkno]
            · have hsuccess : answer.normalised.status ≠ taskStatusSuccess := fun heq => hkno (by rw [heq]; decide)
              have hfail : answer.normalised.status ≠ taskStatusFailure := fun heq => hkno (by rw [heq]; decide)
              refine pass_step h rfl (not_suno_of_call (by simp [Pass.setObject]))
                ⟨fun heq => absurd heq hfail,fun heq => absurd heq hsuccess⟩
                (updateVideoSingleTask_books cfg now task s.books hsuccess hfail) ?_
              simp [hkno]

lemma submit_shift (hw : NoDatabaseFailure cfg.env) (hlog : cfg.logConsumeEnabled) (h : Ready u s) (t : Task)
    (hH : PolledOnce u s (.submit info t now)) :
    Settles cfg u s (.submit info t now) := by
  have hmove : Moves u s.books (step cfg s (.submit info t now)).books (share u info.userId t.quota)
    (share u info.userId t.quota) := by
    rw [step,hlog]
    exact chargeSubmission_moves hw h.numbered
  have hnew := get?_eq_none.mpr fun r hr => (h.fresh r hr).ne
  have hcost : (step cfg s (.submit info t now)).cost u = s.cost u+share u info.userId t.quota := by
    refine (total_put_of_none hnew (cost u)).trans ?_
    simp [cost,initTask,share,System.cost,show taskStatusNotStart ≠ taskStatusFailure by decide]
  refine ⟨⟨_,_,_,⟨hmove,hcost⟩,by simp [Invoiced]⟩,hmove.numbered,fun r hr => ?_,fun r hr hu => ?_,h.calls⟩
  · show r.id < s.nextID+1
    rcases mem_put.mp hr with rfl | ⟨hr,_⟩
    · exact Nat.lt_succ_self _
    · exact (h.fresh r hr).trans (Nat.lt_succ_self _)
  · rcases mem_put.mp hr with rfl | ⟨hr,_⟩
    · exact hH hu
    · exact h.quotas r hr hu

lemma platform_shift (h : Ready u s) :
    Settles cfg u s (.platform plat fails) := by
  simp only [Settles,step,Invoiced]
  cases hp : s.pass with
  | none => exact idle_step h trivial
  | some p =>
    have hcalls := not_suno_of_call (p:=openPlatform p plat) (by simp [openPlatform])
    cases fails with
    | true => exact pass_step h rfl hcalls (.inl rfl) rfl rfl
    | false =>
      exact marked_step h rfl hcalls (fun t => decide (t.id ∈ nullTaskIds p plat)) failTask (fun _ => rfl) (fun _ => rfl)
        (fun _ => ⟨rfl,rfl⟩) rfl rfl (by simp)

lemma channel_shift (h : Ready u s) :
    Settles cfg u s (.channel channelID found fails) := by
  simp only [Settles,step,Invoiced]
  cases hp : s.pass with
  | none => exact idle_step h trivial
  | some p =>
    dsimp only
    cases p.taskChannelM.lookup channelID with
    | none => exact idle_step h trivial
    | some taskIDs =>
      cases found with
      | true => exact pass_step h rfl (not_suno_of_call (by dsimp only; split <;> simp)) (.inl rfl) rfl rfl
      | false =>
        cases fails with
        | true => exact pass_step h rfl (not_suno_of_call (by simp)) (.inr (.inl rfl)) rfl rfl
        | false =>
          exact marked_step h rfl (not_suno_of_call (by simp)) (fun t => decide (t.taskID ∈ taskIDs))
            (fun t => { failTask t with failReason := channelGone p.platform channelID })
              (fun _ => rfl) (fun _ => rfl) (fun _ => ⟨rfl,rfl⟩)
            rfl rfl (by simp)

lemma step_shift (hw : NoDatabaseFailure cfg.env) (hlog : cfg.logConsumeEnabled)
    (hprice : NonnegPrices cfg) (h : Ready u s)
    (hH : PolledOnce u s e) : Settles cfg u s e := by
  cases e with
  | submit => exact submit_shift hw hlog h _ hH
  | relayed log =>
    have hmove : Moves u s.books (step cfg s (.relayed log)).books 0 0 := by
      simpa [billed,step] using addLog_moves h.numbered { log with logType := .consume, ofTask := false }
    exact books_step h rfl h.calls trivial hmove rfl
  | load =>
    exact pass_step h rfl (not_suno_of_call (by simp)) trivial rfl rfl
  | platform => exact platform_shift h
  | channel => exact channel_shift h
  | sunoItem => exact sunoItem_shift hw h hH
  | videoTask => exact videoTask_shift hw hprice h _ hH
  | callEnd =>
    refine pass_step h rfl (fun p hp => ?_) trivial rfl rfl
    obtain ⟨q,_,rfl⟩ := map_eq_some_iff.mp hp
    simp
  | fetch | fetched => exact absurd hH id

end

/-! Whole runs. -/

lemma start_ready (hnum : b.Numbered) (u : ℕ) : Ready u (start b) :=
  ⟨hnum,nofun,nofun,nofun⟩

lemma start_agrees (hnone : ∀ l ∈ b.logs.rows, l.ofTask = false) : Agrees b u (start b) := by
  have hzero : b.invoiced u = 0 := total_eq_zero fun l hl => by simp [billed,hnone l hl]
  refine ⟨?_,hzero⟩
  show b.balance u = (b.balance u).map (·-b.invoiced u)
  simp [hzero]

/-- Failed tasks and re-settlements that find another row are what the invoice misses. -/
theorem invoices_agree_iff (cfg : Settings) (hw : NoDatabaseFailure cfg.env) (hlog : cfg.logConsumeEnabled = true)
    (hprice : ∀ model group tokens quota, cfg.actualQuota model group tokens = some quota → 0 ≤ quota) (u : ℕ) (b : Books)
    (hnumbered : b.Numbered) (hnone : ∀ l ∈ b.logs.rows, l.ofTask = false)
    (hb : (b.balance u).isSome = true) (events : List Event)
    (hpolled : Along (step cfg) (PolledOnce u) (start b) events) :
    (Always (step cfg) (Agrees b u) (start b) events ↔ Along (step cfg) (Invoiced cfg u) (start b) events) ∧
    (Along (step cfg) (Invoiced cfg u) (start b) events →
      let s := run (step cfg) (start b) events
      (∀ t ∈ s.tasks.rows, t.userID = u → t.status = taskStatusSuccess ∨ t.status = taskStatusFailure) →
      s.books.balance u = (b.balance u).map (·-s.books.invoiced u) ∧
        s.books.invoiced u = s.tasks.total fun t => if t.userID = u ∧ t.status = taskStatusSuccess then t.quota else 0) := by
  have hiff : Always (step cfg) (Agrees b u) (start b) events ↔ Along (step cfg) (Invoiced cfg u) (start b) events := by
    refine always_iff_along_under (I := fun s => Agrees b u s ∧ Ready u s) ?_ (fun s h => h.1) ?_
      ⟨start_agrees hnone,start_ready hnumbered u⟩ hpolled
    · rintro s e ⟨hagr,hrea⟩ hH hG
      obtain ⟨⟨i,t,c,hshi,hGiff⟩,hrea'⟩ := step_shift hw hlog hprice hrea hH
      exact ⟨(hshi.agrees_iff hb hagr).mpr (hGiff.mp hG),hrea'⟩
    · rintro s e ⟨hagr,hrea⟩ hH hno hafter
      obtain ⟨⟨i,t,c,hshi,hGiff⟩,_⟩ := step_shift hw hlog hprice hrea hH
      exact hno (hGiff.mpr ((hshi.agrees_iff hb hagr).mp hafter))
  refine ⟨hiff,fun hG => ?_⟩
  intro s hended
  obtain ⟨hbala,hcost⟩ : Agrees b u s := (hiff.mpr hG).last
  refine ⟨hbala,hcost.trans (total_congr fun t ht => ?_)⟩
  by_cases hu : t.userID = u
  · rcases hended t ht hu with hstatus | hstatus
    · simp [cost,hstatus,show taskStatusSuccess ≠ taskStatusFailure by decide]
    · simp [cost,hstatus,show taskStatusFailure ≠ taskStatusSuccess by decide]
  · simp [cost,hu]

/-! Runs of user 1 under a price of one a token. -/

def perToken : Settings := { actualQuota := fun _ _ tokens => some (max tokens 0), userGroup := fun _ => "default" }

def finished (tokens : ℤ) : Option TaskInfo := some { status := taskStatusSuccess, totalTokens := tokens, model := "m" }

def failedPolled : List Event :=
  [submission "t" "kling",.load,.platform "kling" false,.channel 7 true false,.videoTask
    (some { status := taskStatusFailure }) false 200]

/-- Two tasks of one estimate, submitted more than the slack apart. -/
def sameEstimate : List Event :=
  [submission "t" "kling",.submit payer ⟨0,"u","kling",1,"",7,500,"","",0,0,0,"",""⟩ 1100,.load,
    .platform "kling" false,.channel 7 true false,
    .videoTask (finished 700) false 1200,.videoTask (finished 300) false 1201]

theorem invoices_disagree : (Along (step perToken) (PolledOnce 1) (start payerBooks) failedPolled ∧
      (run (step perToken) (start payerBooks) failedPolled).books.balance 1 = some 10000 ∧
      (run (step perToken) (start payerBooks) failedPolled).books.invoiced 1 = 500 ∧
      (run (step perToken) (start payerBooks) failedPolled).tasks.rows.map Task.status = [taskStatusFailure]) ∧
    (Along (step perToken) (PolledOnce 1) (start payerBooks) sameEstimate ∧
      (run (step perToken) (start payerBooks) sameEstimate).books.balance 1 = some 9000 ∧
      (run (step perToken) (start payerBooks) sameEstimate).books.invoiced 1 = 1200 ∧
      (run (step perToken) (start payerBooks) sameEstimate).tasks.rows.map Task.quota = [700,300]) := by
  decide +kernel

theorem invoices_agree_together :
    let events : List Event :=
      [submission "t" "kling",submission "u" "kling",.load,.platform "kling" false,
        .channel 7 true false,.videoTask (finished 700) false 200,
        .videoTask (finished 300) false 201]
    let s := run (step perToken) (start payerBooks) events
    Along (step perToken) (Invoiced perToken 1) (start payerBooks) events ∧ s.books.balance 1 = some 9000 ∧
      s.books.invoiced 1 = s.tasks.total fun t => if t.userID = 1 ∧ t.status = taskStatusSuccess then t.quota else 0 := by
  intro events s
  have hpolled : Along (step perToken) (PolledOnce 1) (start payerBooks) events := by decide +kernel
  have hagr := invoices_agree_iff perToken ⟨rfl,rfl⟩ rfl
    (fun _ _ tokens _ hquota => some.inj hquota ▸ le_max_right tokens 0) 1 payerBooks (nofun) (nofun) rfl
    events hpolled
  have hinvo := hagr.1.mp (by decide +kernel)
  exact ⟨hinvo,by decide +kernel,(hagr.2 hinvo (by decide +kernel)).2⟩

end LurusHub.AsyncTask
