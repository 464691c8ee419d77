import LurusHub.ErasureComplete

/-! Left alone, an execution of the cascade comes to its end, wherever the cursor stands: every batch
takes rows out of its own selection, so each loop runs dry. -/
namespace LurusHub.PrivacyErasure

open CrashRuns CrashRuns.Program KeyedTable Returns AuditEvent List Transition

section
variable {R : Type} {key : R → ℤ} {t : KeyedTable R ℤ key}

lemma selected_lt (h : batchIds t p n ≠ []) :
    (t.rows.filter fun r => p r && !decide (key r ∈ batchIds t p n)).length < (t.rows.filter p).length := by
  obtain ⟨k,hk⟩ := exists_mem_of_ne_nil _ h
  obtain ⟨r,hr,hp,rfl⟩ := mem_batchIds hk
  have hlt := (length_filter_lt_length_iff_exists (p := fun r => !decide (key r ∈ batchIds t p n))).mpr
    ⟨r,mem_filter.mpr ⟨hr,hp⟩,by simp [hk]⟩
  simpa [Bool.and_comm] using hlt

lemma selected_deleteWhere_lt (h : batchIds t p n ≠ []) :
    ((t.deleteWhere fun r => key r ∈ batchIds t p n).rows.filter p).length < (t.rows.filter p).length := by
  simpa [deleteWhere] using selected_lt h

lemma selected_updateWhere_lt (hkey : ∀ r, key (f r) = key r) (hf : ∀ r, p (f r) = false)
    (h : batchIds t p n ≠ []) :
    ((t.updateWhere (fun r => key r ∈ batchIds t p n) f hkey).rows.filter p).length < (t.rows.filter p).length := by
  have hsel : (p ∘ fun r => if key r ∈ batchIds t p n then f r else r) =
      fun r => p r && !decide (key r ∈ batchIds t p n) := by
    funext r
    by_cases hr : key r ∈ batchIds t p n <;> simp [hr,hf]
  simpa [updateWhere,filter_map,hsel] using selected_lt h

end

section
variable {pass : Pass}

lemma asks_batch : Asks (do let found ← batch selectWords writeWords ids write; pure found.length) := by
  refine Asks.bind (Asks.bind (asks_statement _ _ _) fun found => ?_) fun found => spends_pure _
  by_cases hfound : found = []
  · rw [if_pos hfound]
    exact spends_pure _
  · rw [if_neg hfound]
    exact Spends.bind (spends_statement _ _ _) fun _ => spends_pure _

lemma returns_drainIds (size : Db → ℕ) (h : ∀ db, ids db ≠ [] → size (write (ids db) db) < size db) :
    Returns (drainIds (batch selectWords writeWords ids write)) (fun _ _ => True) db := by
  refine drain asks_batch size fun db => ?_
  refine bind (Q := fun found db' => found.length = 0 ∨ size db' < size db) ?_ fun found db' hfound => pure hfound
  refine next ?_
  by_cases hids : ids db = []
  · rw [if_pos hids]
    exact pure (Or.inl rfl)
  · rw [if_neg hids]
    exact next (pure (Or.inr (h db hids)))

lemma returns_drainAuditEvents :
    Returns (drain (scrubAuditEventsBatch userID n)) (fun _ _ => True) db := by
  refine drain ?_ (fun db => (db.auditEvents.rows.filter (toScrub userID)).length) fun db => ?_
  · refine Asks.bind (asks_statement _ _ _) fun ids => ?_
    by_cases hids : ids = []
    · rw [if_pos hids]
      exact spends_pure _
    · rw [if_neg hids]
      exact spends_statement _ _ _
  · refine next ?_
    split
    · exact pure (Or.inl rfl)
    · next hids =>
      refine statement (Or.inr ?_)
      exact selected_updateWhere_lt (f := scrubbed) (fun _ => rfl)
        (fun e => by simp [toScrub,scrubbed]) hids

lemma returns_hardDeleteOwnedLazily :
    Returns (hardDeleteOwnedLazily words table probeFails userID) (fun _ _ => True) db := by
  refine bind (observe (Q := fun _ _ => True) trivial) fun there db' _ => ?_
  cases there with
  | false => exact pure trivial
  | true => exact statement trivial

lemma returns_revokePermissionGrantsForUser :
    Returns (revokePermissionGrantsForUser now userID) (fun _ _ => True) db := by
  unfold revokePermissionGrantsForUser
  split
  · exact pure trivial
  · refine next ?_
    split
    · exact pure trivial
    · exact statement trivial

lemma returns_tokensStep : Returns (tokensStep pass req) (fun step _ => step = .tokensDeleted) db := by
  refine next ?_
  refine (returns_hardDeleteOwnedLazily).bind fun _ db _ => ?_
  refine (returns_hardDeleteOwnedLazily).bind fun _ db _ => ?_
  refine next ?_
  refine (returns_hardDeleteOwnedLazily).bind fun _ db _ => ?_
  refine next ?_
  refine (returns_revokePermissionGrantsForUser).bind fun _ db _ => ?_
  exact next (pure rfl)

lemma returns_mappingsStep : Returns (mappingsStep req) (fun step _ => step = .mappingsDeleted) db := by
  refine next ?_
  exact next (pure rfl)

lemma returns_drainChatMessages :
    Returns (drainIds (hardDeleteChatMessagesBatch userID n)) (fun _ _ => True) db :=
  returns_drainIds (fun db => (db.chatMessages.rows.filter (messageOf db userID)).length)
    fun _ hids => selected_deleteWhere_lt hids

lemma returns_drainChatSessions :
    Returns (drainIds (hardDeleteChatSessionsBatch userID n)) (fun _ _ => True) db :=
  returns_drainIds (fun db => (db.chatSessions.rows.filter fun s => s.userId = userID).length)
    fun db hids => selected_deleteWhere_lt (t := db.chatSessions) (p := fun s => s.userId = userID) (n := n) hids

lemma returns_drainMidjourney :
    Returns (drainIds (hardDeleteMidjourneyBatch userID n)) (fun _ _ => True) db :=
  returns_drainIds (fun db => (db.midjourneys.rows.filter fun m => m.userId = userID).length)
    fun db hids => selected_deleteWhere_lt (t := db.midjourneys) (p := fun m => m.userId = userID) (n := n) hids

lemma returns_drainLogBodies :
    Returns (drainIds (hardDeleteLogBodiesBatch userID n)) (fun _ _ => True) db :=
  returns_drainIds (fun db => (db.logBodies.rows.filter fun b => b.userId = userID).length)
    fun db hids => selected_deleteWhere_lt (t := db.logBodies) (p := fun b => b.userId = userID) (n := n) hids

lemma returns_drainLogs : Returns (drainIds (anonymizeLogsBatch userID n)) (fun _ _ => True) db :=
  returns_drainIds (fun db => (db.logs.rows.filter (Log.toScrub userID)).length) fun _ hids =>
    selected_updateWhere_lt (f := Log.anonymized) (fun _ => rfl) (fun l => by simp [Log.toScrub,Log.anonymized]) hids

lemma returns_contentStep : Returns (contentStep req) (fun step _ => step = .contentDeleted) db := by
  refine (returns_drainChatMessages).bind fun _ db _ => ?_
  refine (returns_drainChatSessions).bind fun _ db _ => ?_
  refine next ?_
  refine (returns_drainMidjourney).bind fun _ db _ => ?_
  refine next ?_
  refine next ?_
  refine next ?_
  refine next ?_
  refine (returns_drainLogBodies).bind fun _ db _ => ?_
  exact next (pure rfl)

lemma returns_logsStep : Returns (logsStep req) (fun step _ => step = .logsAnonymized) db := by
  refine (returns_drainLogs).bind fun _ db _ => ?_
  exact next (pure rfl)

lemma returns_auditStep : Returns (auditStep req) (fun step _ => step = .auditScrubbed) db := by
  refine (returns_drainAuditEvents).bind fun _ db _ => ?_
  exact next (pure rfl)

lemma returns_usersStep (huser : req.userId ≠ 0) : Returns (usersStep pass req)
      (fun _ db => ∀ r, db.requests.get? req.id = some r → r.status = .completed) db := by
  have hrow : Returns (anonymizeUserRow pass.now req.userId) (fun _ _ => True) db := by
    rw [anonymizeUserRow,if_neg huser]
    exact statement trivial
  refine bind hrow fun _ db _ => statement fun r hr => ?_
  simp only [get?_modify_self] at hr
  obtain ⟨r',_,rfl⟩ := Option.map_eq_some_iff.mp hr
  rfl

lemma returns_atStep {here next step : ErasureStep}
    (hstep : step ∈ here::next::rest) (h : Returns branch (fun step _ => step = next) db) :
    Returns (atStep here branch step) (fun step _ => step ∈ next::rest) db := by
  unfold atStep
  by_cases hhere : step = here
  · rw [if_pos hhere]
    obtain ⟨n,a,db',rfl,hrun⟩ := h
    exact ⟨n,a,db',mem_cons_self,hrun⟩
  · rw [if_neg hhere]
    exact pure ((mem_cons.mp hstep).resolve_left hhere)

theorem returns_executeErasure (hkno : ∀ value, req.step ≠ .unknown value)
    (huser : req.userId ≠ 0) : Returns (executeErasure pass req)
      (fun _ db => ∀ r, db.requests.get? req.id = some r → r.status = .completed) db := by
  have hstep : req.step ∈ [ErasureStep.none,.tokensDeleted,.mappingsDeleted,.contentDeleted,
    .logsAnonymized,.auditScrubbed] := by
    cases hs : req.step with
    | unknown value => exact absurd hs (hkno value)
    | _ => decide
  refine bind (returns_atStep hstep returns_tokensStep) fun _ db hstep => ?_
  refine bind (returns_atStep hstep returns_mappingsStep) fun _ db hstep => ?_
  refine bind (returns_atStep hstep returns_contentStep) fun _ db hstep => ?_
  refine bind (returns_atStep hstep returns_logsStep) fun _ db hstep => ?_
  refine bind (returns_atStep hstep returns_auditStep) fun step db hstep => ?_
  rw [if_pos (mem_singleton.mp hstep)]
  exact returns_usersStep huser

/-- One execution left alone completes the request, however others were interrupted. -/
theorem resumed_execution_erases (req : PrivacyErasureRequest) (passes : List Pass)
    (hreq : db.requests.get? req.id = some req) (hpending : req.status = .pending) (hstep : req.step = .none)
    (huser : req.userId ≠ 0) (hmarked : MarkedScrubbed req.userId db) (hprobes : ∀ p ∈ pass::passes, Probed p req.id) :
    ∃ now, (run step db passes).requests.get? req.id = some now ∧ Returns (executeErasure pass now)
      (fun _ db' => ∃ r, db'.requests.get? req.id = some r ∧ r.status = .completed ∧ Erased req.userId db db')
      (run step db passes) := by
  let w : Watched := ⟨req.id,req.userId,db.logs.rows.map Log.billing,[]⟩
  obtain ⟨hpro,hpassed⟩ := forall_mem_cons.mp hprobes
  have hstart : Inv w db := by
    refine ⟨hmarked,rfl,?_,?_,?_,?_,?_⟩ <;> simp [w,hreq,hstep,hpending,cleared]
  have hinv : Inv w (run step db passes) :=
    run_invariant (G := fun _ p => Probed p req.id) (fun db p h hp => inv_step rfl hp h) hstart
      (along_of_forall (fun p hp _ => hpassed p hp) db)
  obtain ⟨now,hnow,hkno⟩ := hinv.row
  have hown := hinv.owner now hnow
  have hid : now.id = req.id := key_of_get? hnow
  -- the execution comes to its end, and the invariant is there to say what that end means
  have hret : Returns (executeErasure pass now) _ (run step db passes) := returns_executeErasure hkno (hown ▸ huser)
  obtain ⟨n,u,db',hdone,hrun⟩ := hret
  have hend := (triple_executeErasure (fun _ => hown) fun _ => hid ▸ hpro).store
    ⟨hinv,fun _ => hinv.cursor now hnow⟩ (replicate n .done++[])
  rw [hrun] at hend
  obtain ⟨r,hr,-⟩ := hend.row
  have hcom := hdone r (hid ▸ hr)
  exact ⟨now,hnow,n,u,db',⟨r,hr,hcom,erased_of_clean (hend.completed r hr hcom) hend.billing⟩,hrun⟩

theorem resumed_execution_erases_interrupted :
    ∃ now, (step (account "victim") interrupted).requests.get? 1 = some now ∧ Returns (executeErasure undisturbed now)
      (fun _ db' => ∃ r, db'.requests.get? 1 = some r ∧ r.status = .completed ∧ Erased 7 (account "victim") db')
      (step (account "victim") interrupted) :=
  resumed_execution_erases ⟨1,7,.pending,.none,0,[],100⟩ [interrupted] rfl rfl rfl (by decide) (by decide +kernel)
    (by decide)

end

end LurusHub.PrivacyErasure
