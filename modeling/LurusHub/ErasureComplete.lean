import LurusHub.PrivacyErasure

/-! What a completed erasure leaves behind. Every statement keeps a table clean once it is clean, so
what the cursor promises survives failures, stops and other requests. The log loop takes the marker
in `username` for its own work: such rows must have been scrubbed already. -/
namespace LurusHub.PrivacyErasure

open CrashRuns CrashRuns.Program KeyedTable Triple Function Option
open List hiding after

inductive Target where
  | owned (table : OwnerTable)
  | ownedLazily (table : LazyTable)
  | chatMessages
  | chatSessions
  | midjourneys
  | logBodies
  | logs
  | auditEvents
  deriving DecidableEq

def Clean (userID : ℤ) (db : Db) : Target → Prop
  | .owned table => ∀ r ∈ db.owned table, r.userId ≠ userID
  | .ownedLazily table => ∀ rows ∈ db.ownedLazily table, ∀ r ∈ rows, r.userId ≠ userID
  | .chatMessages => ∀ m ∈ db.chatMessages.rows, m.userId ≠ userID
  | .chatSessions => ∀ s ∈ db.chatSessions.rows, s.userId ≠ userID
  | .midjourneys => ∀ m ∈ db.midjourneys.rows, m.userId ≠ userID
  | .logBodies => ∀ b ∈ db.logBodies.rows, b.userId ≠ userID
  | .logs => ∀ l ∈ db.logs.rows, l.userId = userID → l.anonymized = l
  | .auditEvents => ∀ e ∈ db.auditEvents.rows, e.actorId = userID → e.actorType = .user → e.scrubbed = e

def tokenTargets : List Target :=
  [.owned .responseRegistry,.owned .userSessions,.ownedLazily .userTotpBackupCodes,
    .ownedLazily .userTotps,.owned .tokens]

def contentTargets : List Target :=
  [.logBodies,.owned .playgroundPresets,.midjourneys,.chatSessions,.chatMessages,.owned .identityMappings]++tokenTargets

/-- What has been cleared when the cursor stands at a step; project memberships are left out, as
their probe may fail. -/
def cleared : ErasureStep → List Target
  | .none => []
  | .tokensDeleted => tokenTargets
  | .mappingsDeleted => .owned .identityMappings::tokenTargets
  | .contentDeleted => contentTargets
  | .logsAnonymized => .logs::contentTargets
  | .auditScrubbed => .auditEvents::.logs::contentTargets
  | .unknown _ => []

/-- Every log row of the user that has the marker as its username is a scrubbed one. -/
def MarkedScrubbed (userID : ℤ) (db : Db) : Prop :=
  ∀ l ∈ db.logs.rows, l.userId = userID → l.username = erasedMarker → l.anonymized = l
  deriving Decidable

def Log.billing (l : Log) : ℤ × ℤ × ℤ × ℤ × ℤ × String × ℤ :=
  (l.id,l.userId,l.quota,l.promptTokens,l.completionTokens,l.modelName,l.createdAt)

structure Erases (db db' : Db) : Prop where
  requests : db'.requests = db.requests
  clean : ∀ userID t, Clean userID db t → Clean userID db' t
  marked : ∀ userID, MarkedScrubbed userID db → MarkedScrubbed userID db'
  billing : db'.logs.rows.map Log.billing = db.logs.rows.map Log.billing

@[simp] lemma mem_withoutUser {rows : List Row} :
    r ∈ withoutUser userID rows ↔ r ∈ rows ∧ r.userId ≠ userID := by
  simp [withoutUser]

lemma mem_deleteWhere {R : Type} {key : R → ℤ} {t : KeyedTable R ℤ key} {p : R → Bool} {r : R} :
    r ∈ (t.deleteWhere p).rows ↔ r ∈ t.rows ∧ p r = false := by
  simp [deleteWhere]

lemma mem_batchIds {R : Type} {key : R → ℤ} {t : KeyedTable R ℤ key} {p : R → Bool}
    (h : k ∈ batchIds t p n) : ∃ r ∈ t.rows, p r ∧ key r = k := by
  have hk := (mem_insertionSort _).mp (mem_of_mem_take h)
  simpa [and_assoc] using hk

theorem batchIds_eq_nil {R : Type} {key : R → ℤ} {t : KeyedTable R ℤ key} {p : R → Bool}
    (h : batchIds t p n = []) : ∀ r ∈ t.rows, p r = false := by
  intro r hr
  by_contra hp
  have hmem : key r ∈ ((t.rows.filter p).map key).insertionSort (· ≤ ·) :=
    (mem_insertionSort _).mpr (mem_map_of_mem (mem_filter.mpr ⟨hr,by simpa using hp⟩))
  rcases take_eq_nil_iff.mp h with hlim | hnil
  · split at hlim <;> omega
  · rw [hnil] at hmem
    cases hmem

@[simp] lemma Log.anonymized_userId (l : Log) : l.anonymized.userId = l.userId := rfl
@[simp] lemma Log.anonymized_billing (l : Log) : l.anonymized.billing = l.billing := rfl
@[simp] lemma AuditEvent.scrubbed_scrubbed (e : AuditEvent) : e.scrubbed.scrubbed = e.scrubbed := rfl

lemma erases_deleteOwned (db : Db) : Erases db (db.deleteOwned table userID) := by
  refine ⟨rfl,fun v target hcle => ?_,fun _ h => h,rfl⟩
  cases target <;> try exact hcle
  rename_i table'
  intro r hr
  by_cases htable : table' = table
  · subst htable
    simp only [Db.deleteOwned,update_self,mem_withoutUser] at hr
    exact hcle r hr.1
  · simp only [Db.deleteOwned,update_of_ne htable] at hr
    exact hcle r hr

lemma erases_deleteOwnedLazily : Erases db (db.deleteOwnedLazily table userID) := by
  refine ⟨rfl,fun v target hcle => ?_,fun _ h => h,rfl⟩
  cases target <;> try exact hcle
  rename_i table'
  intro rows hrows r hr
  by_cases htable : table' = table
  · subst htable
    simp only [Db.deleteOwnedLazily,update_self] at hrows
    obtain ⟨rows',hrows',rfl⟩ := map_eq_some_iff.mp hrows
    exact hcle rows' hrows' r (mem_withoutUser.mp hr).1
  · simp only [Db.deleteOwnedLazily,update_of_ne htable] at hrows
    exact hcle rows hrows r hr

lemma clean_deleteOwned (db : Db) : Clean userID (db.deleteOwned table userID) (.owned table) := by
  intro r hr
  simp only [Db.deleteOwned,update_self,mem_withoutUser] at hr
  exact hr.2

lemma clean_deleteOwnedLazily (db : Db) :
    Clean userID (db.deleteOwnedLazily table userID) (.ownedLazily table) := by
  intro rows hrows r hr
  simp only [Db.deleteOwnedLazily,update_self] at hrows
  obtain ⟨rows',_,rfl⟩ := map_eq_some_iff.mp hrows
  exact (mem_withoutUser.mp hr).2

lemma erases_midjourneys (h : ∀ m ∈ t.rows, ∃ m' ∈ db.midjourneys.rows, m'.userId = m.userId) :
    Erases db { db with midjourneys := t } := by
  refine ⟨rfl,fun v target hcle => ?_,fun _ h => h,rfl⟩
  cases target <;> try exact hcle
  intro m hm
  obtain ⟨m',hm',heq⟩ := h m hm
  exact heq ▸ hcle m' hm'

lemma erases_logs : Erases db { db with logs := db.logs.updateWhere p Log.anonymized } := by
  have hrow : ∀ l ∈ (db.logs.updateWhere p Log.anonymized).rows, ∃ l' ∈ db.logs.rows,
      l'.userId = l.userId ∧ (l = l' ∨ l = l'.anonymized) := by
    intro l hl
    obtain ⟨l',hl',rfl⟩ := mem_map.mp hl
    refine ⟨l',hl',?_⟩
    cases p l' <;> simp
  refine ⟨rfl,fun v target hcle => ?_,fun v hmar l hl hv hname => ?_,?_⟩
  · cases target <;> try exact hcle
    intro l hl hv
    obtain ⟨l',hl',hu,rfl | rfl⟩ := hrow l hl
    · exact hcle l hl' hv
    · rfl
  · obtain ⟨l',hl',hu,rfl | rfl⟩ := hrow l hl
    · exact hmar l hl' hv hname
    · rfl
  · have hbil : (Log.billing ∘ fun l => if p l then l.anonymized else l) = Log.billing := by
      funext l
      cases hp : p l <;> simp [hp]
    simp [updateWhere,hbil]

lemma erases_auditEvents :
    Erases db { db with auditEvents := db.auditEvents.updateWhere p AuditEvent.scrubbed } := by
  refine ⟨rfl,fun v target hcle => ?_,fun _ h => h,rfl⟩
  cases target <;> try exact hcle
  intro e he hact htype
  obtain ⟨e',he',rfl⟩ := mem_map.mp he
  cases hp : p e' with
  | false =>
    simp only [hp] at hact htype ⊢
    exact hcle e' he' hact htype
  | true => simp

structure Watched where
  (id userID : ℤ)
  bills : List (ℤ × ℤ × ℤ × ℤ × ℤ × String × ℤ)
  base : List Target

structure Inv (w : Watched) (db : Db) : Prop where
  marked : MarkedScrubbed w.userID db
  billing : db.logs.rows.map Log.billing = w.bills
  base : ∀ t ∈ w.base, Clean w.userID db t
  row : ∃ r, db.requests.get? w.id = some r ∧ ∀ value, r.step ≠ .unknown value
  owner : ∀ r, db.requests.get? w.id = some r → r.userId = w.userID
  cursor : ∀ r, db.requests.get? w.id = some r → ∀ t ∈ cleared r.step, Clean w.userID db t
  completed : ∀ r, db.requests.get? w.id = some r → r.status = .completed →
    ∀ t ∈ cleared .auditScrubbed, Clean w.userID db t

/-- The invariant, and how far the current execution has cleared the watched user. -/
def Stage (w : Watched) (req : PrivacyErasureRequest) (ts : List Target) (db : Db) : Prop :=
  Inv w db ∧ (req.id = w.id → ∀ t ∈ ts, Clean w.userID db t)

/-- Neither TOTP table is taken for missing. -/
abbrev Probed (pass : Pass) (id : ℤ) : Prop :=
  pass.probeFails .userTotps id = false ∧ pass.probeFails .userTotpBackupCodes id = false

/-- Takes the execution from one stage to the next, and keeps the invariant when it is cut short. -/
abbrev Clears (w : Watched) (req : PrivacyErasureRequest) (ts : List Target) (prog : Program Db α)
    (ts' : List Target) : Prop :=
  Triple (Stage w req ts) prog (fun _ => Stage w req ts') (Inv w)

/-- Ends at a cursor whose promise holds. -/
abbrev Reaches (w : Watched) (req : PrivacyErasureRequest) (ts : List Target) (prog : Program Db ErasureStep) : Prop :=
  Triple (Stage w req ts) prog (fun step => Stage w req (cleared step)) (Inv w)

lemma Inv.erases (h : Inv w db) (he : Erases db db') : Inv w db' where
  marked := he.marked _ h.marked
  billing := he.billing.trans h.billing
  base := fun t ht => he.clean _ t (h.base t ht)
  row := he.requests ▸ h.row
  owner := fun r hr => h.owner r (he.requests ▸ hr)
  cursor := fun r hr t ht => he.clean _ t (h.cursor r (he.requests ▸ hr) t ht)
  completed := fun r hr hc t ht => he.clean _ t (h.completed r (he.requests ▸ hr) hc t ht)

/-- A change of a request that is true to what has been cleared. -/
structure Advances (ts : List Target) (f : PrivacyErasureRequest → PrivacyErasureRequest) : Prop where
  key : ∀ r, (f r).id = r.id
  user : ∀ r, (f r).userId = r.userId
  step : ∀ r, (f r).step = r.step ∨ cleared (f r).step ⊆ ts ∧ ∀ value, (f r).step ≠ .unknown value
  status : ∀ r, (f r).status = r.status ∨ cleared .auditScrubbed ⊆ ts

section
variable (h : Stage w req ts db)
include h

lemma Stage.erases (he : Erases db db') : Stage w req ts db' :=
  ⟨h.1.erases he,fun hid t ht => he.clean _ t (h.2 hid t ht)⟩

lemma Stage.cons (ht : req.id = w.id → Clean w.userID db t) : Stage w req (t::ts) db :=
  ⟨h.1,fun hid => forall_mem_cons.mpr ⟨ht hid,h.2 hid⟩⟩

lemma Stage.subset (hsub : ts' ⊆ ts) : Stage w req ts' db := ⟨h.1,fun hid t ht => h.2 hid t (hsub ht)⟩

lemma Stage.modify (hf : Advances ts f) :
    Stage w req ts { db with requests := db.requests.modify req.id f hf.key } := by
  have hrow : ∃ r, (db.requests.modify req.id f hf.key).get? w.id = some r ∧ ∀ value, r.step ≠ .unknown value := by
    obtain ⟨r,hr,hkno⟩ := h.1.row
    rw [get?_modify]
    split
    · refine ⟨f r,by rw [hr]; rfl,?_⟩
      rcases hf.step r with heq | hsub
      · exact heq ▸ hkno
      · exact hsub.2
    · exact ⟨r,hr,hkno⟩
  refine ⟨⟨h.1.marked,h.1.billing,h.1.base,hrow,fun r hr => ?_,fun r hr t ht => ?_,fun r hr hc t ht => ?_⟩,h.2⟩ <;>
    simp only [get?_modify] at hr <;> split at hr
  · next hid =>
    obtain ⟨r',hr',rfl⟩ := map_eq_some_iff.mp hr
    exact (hf.user r').trans (h.1.owner r' hr')
  · exact h.1.owner r hr
  · next hid =>
    obtain ⟨r',hr',rfl⟩ := map_eq_some_iff.mp hr
    rcases hf.step r' with heq | hsub
    · exact h.1.cursor r' hr' t (heq ▸ ht)
    · exact h.2 hid.symm t (hsub.1 ht)
  · exact h.1.cursor r hr t ht
  · next hid =>
    obtain ⟨r',hr',rfl⟩ := map_eq_some_iff.mp hr
    rcases hf.status r' with heq | hsub
    · exact h.1.completed r' hr' (heq ▸ hc) t ht
    · exact h.2 hid.symm t (hsub ht)
  · exact h.1.completed r hr hc t ht

end

section
variable {w : Watched} {req : PrivacyErasureRequest}

lemma triple_keep (hw : ∀ db, Erases db (write db)) :
    Clears w req ts (execute words write) ts :=
  statement (fun _ h => h.erases (hw _)) (fun _ h => h.1) fun _ h => h.1.erases (hw _)

lemma triple_clear (huser : req.id = w.id → req.userId = w.userID)
    (hw : ∀ db, Erases db (write db)) (hcle : ∀ db, Clean req.userId (write db) t) :
    Clears w req ts (execute words write) (t::ts) :=
  statement (fun db h => (h.erases (hw db)).cons fun hid => huser hid ▸ hcle db) (fun _ h => h.1)
    fun _ h => h.1.erases (hw _)

lemma triple_request (hf : Advances ts f) :
    Clears w req ts (execute words fun db => { db with requests := db.requests.modify req.id f hf.key }) ts :=
  statement (fun _ h => h.modify hf) (fun _ h => h.1) fun _ h => (h.modify hf).1

theorem triple_drainIds (hw : ∀ found db, Erases db (write found db))
    (hempty : ∀ db, Inv w db → ids db = [] → req.id = w.id → Clean w.userID db t) :
    Clears w req ts (drainIds (batch selectWords writeWords ids write)) (t::ts) := by
  have hbatch : Triple (Stage w req ts) (batch selectWords writeWords ids write)
      (fun found db => Stage w req ts db ∧ (found = [] → req.id = w.id → Clean w.userID db t)) (Inv w) := by
    refine bind (select (Q := fun found db => Stage w req ts db ∧ ids db = found)
      (fun db h => ⟨h,rfl⟩) fun _ h => h.1) fun found => ?_
    by_cases hfound : found = []
    · rw [if_pos hfound]
      exact pure fun db h => ⟨h.1,fun _ => hempty db h.1.1 (h.2.trans hfound)⟩
    · rw [if_neg hfound]
      refine bind ((triple_keep (hw found)).mono (fun _ h => h.1) (fun _ _ h => h) fun _ h => h) fun _ => ?_
      exact pure fun db h => ⟨h,fun hnil => absurd hnil hfound⟩
  refine (drain (D := fun db => req.id = w.id → Clean w.userID db t) (bind hbatch fun found => ?_)
    fun _ h => h.1).mono (fun _ h => h) (fun _ _ h => h.1.cons h.2) fun _ h => h
  exact pure fun db h => ⟨h.1,fun hn => h.2 (length_eq_zero_iff.mp hn)⟩

lemma triple_hardDeleteOwned (huser : req.id = w.id → req.userId = w.userID) :
    Clears w req ts (hardDeleteOwned words table req.userId) (.owned table::ts) :=
  triple_clear huser (fun db => erases_deleteOwned db) fun db => clean_deleteOwned db

theorem triple_hardDeleteOwnedLazily (huser : req.id = w.id → req.userId = w.userID)
    (hpro : req.id = w.id → probeFails = false) :
    Clears w req ts (hardDeleteOwnedLazily words table probeFails req.userId) (.ownedLazily table::ts) := by
  refine bind (observe (Q := fun there db => Stage w req ts db ∧
    hasTable (db.ownedLazily table) probeFails = there) fun db h => ⟨h,rfl⟩) fun there => ?_
  cases there with
  | false =>
    refine pure fun db h => h.1.cons fun hid rows hrows => ?_
    have hnone : db.ownedLazily table = none := by simpa [hasTable,hpro hid] using h.2
    rw [hnone] at hrows
    cases hrows
  | true =>
    have hcle : Clears w req ts (execute words (Db.deleteOwnedLazily table req.userId)) (.ownedLazily table::ts) :=
      triple_clear huser (fun db => erases_deleteOwnedLazily) fun db => clean_deleteOwnedLazily db
    exact hcle.mono (fun _ h => h.1) (fun _ _ h => h) fun _ h => h

lemma triple_hardDeleteOwnedLazily_keep :
    Clears w req ts (hardDeleteOwnedLazily words table probeFails userID) ts := by
  refine bind (observe (Q := fun _ => Stage w req ts) fun db h => h) fun there => ?_
  cases there with
  | false => exact pure fun _ h => h
  | true => exact triple_keep fun db => erases_deleteOwnedLazily

lemma triple_revokePermissionGrantsForUser : Clears w req ts (revokePermissionGrantsForUser now userID) ts := by
  unfold revokePermissionGrantsForUser
  by_cases hpos : userID ≤ 0
  · rw [if_pos hpos]
    exact pure fun _ h => h
  · rw [if_neg hpos]
    refine bind (select (Q := fun _ => Stage w req ts) (fun _ h => h) fun _ h => h.1) fun grants => ?_
    by_cases hgra : grants = []
    · rw [if_pos hgra]
      exact pure fun _ h => h
    · rw [if_neg hgra]
      exact triple_keep fun db => ⟨rfl,fun _ _ h => h,fun _ h => h,rfl⟩

lemma triple_advanceErasureStep {step : ErasureStep} (h : cleared step ⊆ ts) (hkno : ∀ value, step ≠ .unknown value) :
    Reaches w req ts (do advanceErasureStep req.id step delta; pure step) :=
  bind (triple_request (f := fun r => { r with step := step, lastError := [], logsScrubbed := r.logsScrubbed+delta })
    ⟨fun _ => rfl,fun _ => rfl,fun _ => .inr ⟨h,hkno⟩,fun _ => .inl rfl⟩) fun _ => pure fun _ hts => hts.subset h

variable {pass : Pass}

section
variable (huser : req.id = w.id → req.userId = w.userID)
include huser

lemma triple_tokensStep (hpro : req.id = w.id → Probed pass req.id) :
    Reaches w req ts (tokensStep pass req) := by
  refine bind (triple_hardDeleteOwned huser) fun _ => ?_
  refine bind (triple_hardDeleteOwnedLazily huser fun hid => (hpro hid).1) fun _ => ?_
  refine bind (triple_hardDeleteOwnedLazily huser fun hid => (hpro hid).2) fun _ => ?_
  refine bind (triple_hardDeleteOwned huser) fun _ => ?_
  refine bind triple_hardDeleteOwnedLazily_keep fun _ => ?_
  refine bind (triple_hardDeleteOwned huser) fun _ => ?_
  refine bind triple_revokePermissionGrantsForUser fun _ => ?_
  exact triple_advanceErasureStep (subset_append_left tokenTargets ts) (by simp)

lemma triple_mappingsStep : Reaches w req (cleared .tokensDeleted) (mappingsStep req) := by
  refine bind (triple_hardDeleteOwned huser) fun _ => ?_
  exact triple_advanceErasureStep (List.Subset.refl _) (by simp)

lemma triple_drainChatMessages (n : ℤ) :
    Clears w req ts (drainIds (hardDeleteChatMessagesBatch req.userId n)) (.chatMessages::ts) := by
  refine triple_drainIds (fun found db => ⟨rfl,fun v t h => ?_,fun _ h => h,rfl⟩) fun db _ hids hid m hm => ?_
  · cases t <;> try exact h
    exact fun m hm => h m (mem_deleteWhere.mp hm).1
  · have hnot := batchIds_eq_nil hids m hm
    simp only [messageOf,Bool.or_eq_false_iff,decide_eq_false_iff_not] at hnot
    exact huser hid ▸ hnot.2

lemma triple_drainChatSessions (n : ℤ) :
    Clears w req ts (drainIds (hardDeleteChatSessionsBatch req.userId n)) (.chatSessions::ts) := by
  refine triple_drainIds (fun found db => ⟨rfl,fun v t h => ?_,fun _ h => h,rfl⟩) fun db _ hids hid s hs => ?_
  · cases t <;> try exact h
    exact fun s hs => h s (mem_deleteWhere.mp hs).1
  · exact huser hid ▸ of_decide_eq_false (batchIds_eq_nil hids s hs)

lemma triple_drainMidjourney (n : ℤ) :
    Clears w req ts (drainIds (hardDeleteMidjourneyBatch req.userId n)) (.midjourneys::ts) := by
  refine triple_drainIds (fun found db => erases_midjourneys fun m hm => ?_) fun db _ hids hid m hm => ?_
  · exact ⟨m,(mem_deleteWhere.mp hm).1,rfl⟩
  · exact huser hid ▸ of_decide_eq_false (batchIds_eq_nil hids m hm)

lemma triple_drainLogBodies (n : ℤ) :
    Clears w req ts (drainIds (hardDeleteLogBodiesBatch req.userId n)) (.logBodies::ts) := by
  refine triple_drainIds (fun found db => ⟨rfl,fun v t h => ?_,fun _ h => h,rfl⟩) fun db _ hids hid b hb => ?_
  · cases t <;> try exact h
    exact fun b hb => h b (mem_deleteWhere.mp hb).1
  · exact huser hid ▸ of_decide_eq_false (batchIds_eq_nil hids b hb)

theorem triple_drainLogs (n : ℤ) : Clears w req ts (drainIds (anonymizeLogsBatch req.userId n)) (.logs::ts) := by
  refine triple_drainIds (fun found db => erases_logs) fun db hinv hids hid l hl hl' => ?_
  have hnot := batchIds_eq_nil hids l hl
  apply hinv.marked l hl hl'
  simpa [Log.toScrub,huser hid,hl'] using hnot

lemma triple_drainAuditEvents (n : ℤ) :
    Clears w req ts (drain (scrubAuditEventsBatch req.userId n)) (.auditEvents::ts) := by
  refine (drain (D := fun db => req.id = w.id → Clean w.userID db .auditEvents) (bind (select
    (Q := fun ids db => Stage w req ts db ∧ batchIds db.auditEvents _ n = ids) (fun db h => ⟨h,rfl⟩) fun _ h => h.1)
    fun ids => ?_) fun _ h => h.1).mono (fun _ h => h) (fun _ _ h => h.1.cons h.2) fun _ h => h
  by_cases hids : ids = []
  · rw [if_pos hids]
    refine pure fun db h => ⟨h.1,fun _ hid e he hact htype => ?_⟩
    have hnot := batchIds_eq_nil (h.2.trans hids) e he
    have hdone : e.ip = "" ∧ e.details = erasedMarker := by simpa [AuditEvent.toScrub,huser hid,hact,htype] using hnot
    cases e
    simp_all [AuditEvent.scrubbed]
  · rw [if_neg hids]
    refine statement (fun db h => ⟨h.1.erases erases_auditEvents,fun hzero => ?_⟩) (fun _ h => h.1.1)
      fun db h => h.1.1.erases erases_auditEvents
    -- the update meets the rows the selection has just seen
    obtain ⟨k,hk⟩ := exists_mem_of_ne_nil ids hids
    obtain ⟨e,he,_,rfl⟩ := mem_batchIds (h.2 ▸ hk)
    have hmem : e ∈ db.auditEvents.rows.filter fun e => e.id ∈ ids := mem_filter.mpr ⟨he,by simpa using hk⟩
    rw [length_eq_zero_iff.mp hzero] at hmem
    cases hmem

lemma triple_contentStep : Reaches w req (cleared .mappingsDeleted) (contentStep req) := by
  refine bind (triple_drainChatMessages huser _) fun _ => ?_
  refine bind (triple_drainChatSessions huser _) fun _ => ?_
  refine bind (triple_keep fun db => erases_midjourneys fun m hm => ?_) fun _ => ?_
  · obtain ⟨m',hm',rfl⟩ := mem_map.mp hm
    exact ⟨m',hm',by cases stillPolled req.userId m' <;> rfl⟩
  refine bind (triple_drainMidjourney huser _) fun _ => ?_
  refine bind (triple_keep fun db => ⟨rfl,fun _ _ h => h,fun _ h => h,rfl⟩) fun _ => ?_
  refine bind (triple_keep fun db => ⟨rfl,fun _ _ h => h,fun _ h => h,rfl⟩) fun _ => ?_
  refine bind (triple_keep fun db => ⟨rfl,fun _ _ h => h,fun _ h => h,rfl⟩) fun _ => ?_
  refine bind (triple_hardDeleteOwned huser) fun _ => ?_
  refine bind (triple_drainLogBodies huser _) fun _ => ?_
  exact triple_advanceErasureStep (List.Subset.refl _) (by simp)

lemma triple_logsStep : Reaches w req (cleared .contentDeleted) (logsStep req) := by
  refine bind (triple_drainLogs huser _) fun scrubbed => ?_
  exact triple_advanceErasureStep (List.Subset.refl _) (by simp)

lemma triple_auditStep : Reaches w req (cleared .logsAnonymized) (auditStep req) := by
  refine bind (triple_drainAuditEvents huser _) fun _ => ?_
  exact triple_advanceErasureStep (List.Subset.refl _) (by simp)

end

lemma triple_usersStep : Clears w req (cleared .auditScrubbed) (usersStep pass req) (cleared .auditScrubbed) := by
  refine bind (Q := fun _ => Stage w req (cleared .auditScrubbed)) ?_ fun _ => ?_
  · unfold anonymizeUserRow
    by_cases hzero : req.userId = 0
    · rw [if_pos hzero]
      exact fail fun _ h => h.1
    · rw [if_neg hzero]
      exact triple_keep fun db => ⟨rfl,fun _ _ h => h,fun _ h => h,rfl⟩
  · exact triple_request (f := fun r => { r with status := .completed, lastError := [] })
      ⟨fun _ => rfl,fun _ => rfl,fun _ => .inl rfl,fun _ => .inr (List.Subset.refl _)⟩

lemma triple_atStep {step : ErasureStep}
    (h : Reaches w req (cleared here) branch) :
    Reaches w req (cleared step) (atStep here branch step) := by
  unfold atStep
  by_cases hstep : step = here
  · rw [if_pos hstep,hstep]
    exact h
  · rw [if_neg hstep]
    exact pure fun _ h => h

lemma triple_executeErasure (huser : req.id = w.id → req.userId = w.userID)
    (hpro : req.id = w.id → Probed pass req.id) :
    Triple (Stage w req (cleared req.step)) (executeErasure pass req) (fun _ => Inv w) (Inv w) := by
  refine bind (triple_atStep (triple_tokensStep huser hpro)) fun _ => ?_
  refine bind (triple_atStep (triple_mappingsStep huser)) fun _ => ?_
  refine bind (triple_atStep (triple_contentStep huser)) fun _ => ?_
  refine bind (triple_atStep (triple_logsStep huser)) fun _ => ?_
  refine bind (triple_atStep (triple_auditStep huser)) fun step => ?_
  by_cases hstep : step = .auditScrubbed
  · rw [hstep]
    exact (triple_usersStep).mono (fun _ h => h) (fun _ _ h => h.1) fun _ h => h
  · rw [if_neg hstep]
    exact fail fun _ h => h.1

lemma triple_executeAll (hpro : Probed pass w.id)
    (hpending : ∀ req ∈ pending, req.id = w.id → req.userId = w.userID ∧ cleared req.step ⊆ w.base) :
    Triple (Inv w) (executeAll pass pending) (fun _ => Inv w) (Inv w) := by
  induction pending with
  | nil => exact pure fun _ h => h
  | cons req rest ih =>
    have hreq := hpending req mem_cons_self
    have hexe : Triple (Inv w) (executeErasure pass req) (fun _ => Inv w) (Inv w) :=
      (triple_executeErasure (fun hid => (hreq hid).1) fun hid => hid ▸ hpro).mono
        (fun db h => ⟨h,fun hid t ht => h.base t ((hreq hid).2 ht)⟩) (fun _ _ h => h) fun _ h => h
    have hrest := ih fun req' hreq' => hpending req' (mem_cons_of_mem req hreq')
    refine bind hexe.attempt_same fun r => ?_
    cases r with
    | ok _ => exact hrest
    | error message =>
      have hreco : Triple (Inv w) (recordErasureError req.id message) (fun _ => Inv w) (Inv w) :=
        (triple_request (f := fun r => { r with lastError := message.toUTF8.toList.take 512 })
          ⟨fun _ => rfl,fun _ => rfl,fun _ => .inl rfl,fun _ => .inl rfl⟩).mono
          (fun db h => (⟨h,fun _ _ h => (not_mem_nil h).elim⟩ : Stage w req [] db)) (fun _ _ h => h.1) fun _ h => h
      exact bind hreco.attempt_same fun _ => hrest

lemma Inv.withBase {base : List Target} (h : Inv w db) (hbase : ∀ t ∈ base, Clean w.userID db t) :
    Inv { w with base := base } db :=
  ⟨h.marked,h.billing,hbase,h.row,h.owner,h.cursor,h.completed⟩

theorem triple_runErasurePass (hbase : w.base = []) (hpro : Probed pass w.id) :
    Triple (Inv w) (runErasurePass pass) (fun _ => Inv w) (Inv w) := by
  have hlist : Triple (Inv w) (listPendingErasureRequests 10) (fun pending db => Inv w db ∧
      ∀ req ∈ pending, db.requests.get? req.id = some req) (Inv w) := by
    refine select (fun db h => ⟨h,fun req hreq => ?_⟩) fun _ h => h
    have hmem := (mem_insertionSort _).mp (mem_of_mem_take hreq)
    exact get?_of_mem (mem_filter.mp hmem).1
  refine bind hlist.attempt fun r => ?_
  cases r with
  | error message => exact pure fun _ h => h
  | ok pending =>
    rintro db rs ⟨hinv,hrows⟩
    -- what the watched row's cursor promises at the listing
    let base := ((db.requests.get? w.id).map fun r => cleared r.step).getD []
    have hcle : ∀ t ∈ base, Clean w.userID db t := by
      intro t ht
      cases hget : db.requests.get? w.id with
      | none => simp [base,hget] at ht
      | some r =>
        simp only [base,hget] at ht
        exact hinv.cursor r hget t ht
    have hall : Triple (Inv { w with base := base }) (executeAll pass pending) (fun _ => Inv { w with base := base })
        (Inv { w with base := base }) := by
      apply triple_executeAll
      · exact hpro
      · intro req hreq hid
        have hget := hid ▸ hrows req hreq
        have hbase' : base = cleared req.step := by simp [base,hget]
        exact ⟨hinv.owner req hget,hbase' ▸ List.Subset.refl _⟩
    have hweak : ∀ db, Inv { w with base := base } db → Inv w db := fun db h =>
      ⟨h.marked,h.billing,by simp [hbase],h.row,h.owner,h.cursor,h.completed⟩
    exact (hall.mono (fun _ h => h) (fun _ db h => hweak db h) hweak) db rs (hinv.withBase hcle)

lemma inv_step (hbase : w.base = []) (hpro : Probed pass w.id) (h : Inv w db) : Inv w (step db pass) :=
  (triple_runErasurePass hbase hpro).store h pass.replies

end

structure Erased (userID : ℤ) (before after : Db) : Prop where
  tokens : ∀ r ∈ after.owned .tokens, r.userId ≠ userID
  userTotps : ∀ rows ∈ after.ownedLazily .userTotps, ∀ r ∈ rows, r.userId ≠ userID
  userTotpBackupCodes : ∀ rows ∈ after.ownedLazily .userTotpBackupCodes, ∀ r ∈ rows, r.userId ≠ userID
  userSessions : ∀ r ∈ after.owned .userSessions, r.userId ≠ userID
  identityMappings : ∀ r ∈ after.owned .identityMappings, r.userId ≠ userID
  chatMessages : ∀ m ∈ after.chatMessages.rows, m.userId ≠ userID
  chatSessions : ∀ s ∈ after.chatSessions.rows, s.userId ≠ userID
  midjourneys : ∀ m ∈ after.midjourneys.rows, m.userId ≠ userID
  playgroundPresets : ∀ r ∈ after.owned .playgroundPresets, r.userId ≠ userID
  logBodies : ∀ b ∈ after.logBodies.rows, b.userId ≠ userID
  logs : ∀ l ∈ after.logs.rows, l.userId = userID → l.username = erasedMarker ∧ l.tokenName = erasedMarker ∧
    l.ip = "" ∧ l.content = "" ∧ l.other = "" ∧ l.employeeRef = ""
  auditEvents : ∀ e ∈ after.auditEvents.rows, e.actorId = userID → e.actorType = .user →
    e.ip = "" ∧ e.details = erasedMarker
  billing : after.logs.rows.map Log.billing = before.logs.rows.map Log.billing

lemma Log.columns_of_anonymized {l : Log} (h : l.anonymized = l) : l.username = erasedMarker ∧
    l.tokenName = erasedMarker ∧ l.ip = "" ∧ l.content = "" ∧ l.other = "" ∧ l.employeeRef = "" := by
  rw [← h]
  exact ⟨rfl,rfl,rfl,rfl,rfl,rfl⟩

lemma erased_of_clean (h : ∀ t ∈ cleared .auditScrubbed, Clean userID after t)
    (hbil : after.logs.rows.map Log.billing = before.logs.rows.map Log.billing) : Erased userID before after where
  tokens := h (.owned .tokens) (by decide)
  userTotps := h (.ownedLazily .userTotps) (by decide)
  userTotpBackupCodes := h (.ownedLazily .userTotpBackupCodes) (by decide)
  userSessions := h (.owned .userSessions) (by decide)
  identityMappings := h (.owned .identityMappings) (by decide)
  chatMessages := h .chatMessages (by decide)
  chatSessions := h .chatSessions (by decide)
  midjourneys := h .midjourneys (by decide)
  playgroundPresets := h (.owned .playgroundPresets) (by decide)
  logBodies := h .logBodies (by decide)
  logs := fun l hl hu => Log.columns_of_anonymized (h .logs (by decide) l hl hu)
  auditEvents := fun e he hact htype => by
    rw [← h .auditEvents (by decide) e he hact htype]
    exact ⟨rfl,rfl⟩
  billing := hbil

theorem completed_request_erased (db : Db) (req : PrivacyErasureRequest) (hreq : db.requests.get? req.id = some req)
    (hpending : req.status = .pending) (hstep : req.step = .none) (hmarked : MarkedScrubbed req.userId db)
    (passes : List Pass) (hprobes : ∀ p ∈ passes, p.probeFails .userTotps req.id = false ∧
      p.probeFails .userTotpBackupCodes req.id = false) :
    Transition.Always step (fun db' => ∀ r, db'.requests.get? req.id = some r → r.status = .completed →
      Erased req.userId db db') db passes := by
  let w : Watched := ⟨req.id,req.userId,db.logs.rows.map Log.billing,[]⟩
  have hstart : Inv w db := by
    refine ⟨hmarked,rfl,fun t ht => (not_mem_nil ht).elim,⟨req,hreq,by simp [hstep]⟩,fun r hr => ?_,
      fun r hr t ht => ?_,fun r hr hc => ?_⟩ <;>
      obtain rfl := some.inj (hreq.symm.trans hr)
    · rfl
    · rw [hstep] at ht
      exact (not_mem_nil ht).elim
    · rw [hpending] at hc
      cases hc
  have hinv : Transition.Always step (Inv w) db passes :=
    Transition.always_of_along (G := fun _ p => Probed p req.id)
      (fun db p h hp => inv_step rfl hp h) hstart (Transition.along_of_forall (fun p hp _ => hprobes p hp) db)
  exact hinv.mono fun db' h r hr hc => erased_of_clean (h.completed r hr hc) h.billing

/-- User 7 with a row everywhere and the given username on the log row, and the request to erase them. -/
def account (username : String) : Db where
  requests := ⟨[⟨1,7,.pending,.none,0,[],100⟩],List.nodup_singleton _⟩
  owned := fun _ => [⟨7⟩,⟨8⟩]
  ownedLazily := fun _ => some [⟨7⟩,⟨8⟩]
  permissionGrants := [⟨7,none⟩]
  chatMessages := ⟨[⟨1,1,7⟩],List.nodup_singleton _⟩
  chatSessions := ⟨[⟨1,7⟩],List.nodup_singleton _⟩
  midjourneys := ⟨[⟨1,7,"SUBMITTED","0%"⟩],List.nodup_singleton _⟩
  tasks := [⟨7,.queued,"0%","",some "prompt",none⟩]
  quotaData := [⟨7,username⟩]
  logBodies := ⟨[⟨1,7⟩],List.nodup_singleton _⟩
  logs := ⟨[⟨1,7,50,"content",username,"token","gpt-4o",40,10,20,"10.0.0.1","other","employee"⟩],List.nodup_singleton _⟩
  auditEvents := ⟨[⟨1,.user,7,"details","10.0.0.1"⟩],List.nodup_singleton _⟩
  users := ⟨[⟨7,username,"name","mail","","",none,some 42,1,none⟩],List.nodup_singleton _⟩

def interrupted : Pass := ⟨fun _ _ => false,200,[.done,.done,.done,.failed "timeout",.done]⟩

def undisturbed : Pass := ⟨fun _ _ => false,260,List.replicate 45 .done⟩

theorem completed_request_erased_resumed :
    ((step (step (account "victim") interrupted) undisturbed).requests.get? 1).map
    (fun r => (r.status,r.logsScrubbed)) =
      some (.completed,1) ∧
    Erased 7 (account "victim") (step (step (account "victim") interrupted) undisturbed) := by
  have hdone : ((step (step (account "victim") interrupted) undisturbed).requests.get? 1).map
      (fun r => (r.status,r.logsScrubbed)) = some (.completed,1) := by decide +kernel
  obtain ⟨r,hr,hstatus⟩ := map_eq_some_iff.mp hdone
  have hera := completed_request_erased (account "victim") ⟨1,7,.pending,.none,0,[],100⟩ rfl rfl rfl (by decide +kernel)
    [interrupted,undisturbed] (by decide)
  exact ⟨hdone,hera.last r hr (congrArg Prod.fst hstatus)⟩

theorem marker_username_keeps_logs :
    ((step (account erasedMarker) undisturbed).requests.get? 1).map PrivacyErasureRequest.status = some .completed ∧
    ∃ l ∈ (step (account erasedMarker) undisturbed).logs.rows, l.userId = 7 ∧ l.content = "content" ∧
      l.ip = "10.0.0.1" ∧ l.tokenName = "token" := by
  decide +kernel

theorem failed_probe_keeps_totp :
    ((step (account "victim") { undisturbed with probeFails := fun t _ => t = .userTotps }).requests.get? 1).map
      PrivacyErasureRequest.status = some .completed ∧
    ∃ rows ∈ (step (account "victim")
    { undisturbed with probeFails := fun t _ => t = .userTotps }).ownedLazily .userTotps,
      (⟨7⟩ : Row) ∈ rows := by
  decide +kernel

end LurusHub.PrivacyErasure
