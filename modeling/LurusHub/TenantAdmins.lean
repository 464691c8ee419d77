import LurusHub.Transition

/-! Role changes of the members of one tenant, each call a transaction under read committed. A call
reads the user row, decides, updates the row, which locks it, and commits. Invites, projects and
failures are up to the environment. -/
namespace LurusHub.TenantAdmins
open Function

inductive Role
  | none | admin | deptLead
  deriving DecidableEq

inductive Call
  | setTenantMemberRole (userID : ℕ) (role : Role)
  | removeProjectMemberRevoking (userID : ℕ)
  | addProjectMemberGranting (userID : ℕ)
  | redeemInviteForExistingUser (userID : ℕ)

def Call.userID : Call → ℕ
  | .setTenantMemberRole userID _ | .removeProjectMemberRevoking userID | .addProjectMemberGranting userID
  | .redeemInviteForExistingUser userID => userID

structure Answer where
  remaining : ℕ := 0
  memberRole : Role := .none
  projectID : ℕ := 0

inductive Verdict
  | errLastTenantAdmin
  | keep
  | write (role : Role)

/-- What a call does with the role it has read; `others` is the count of the other admins. -/
def Call.verdict (u : Role) (others : ℕ) (answer : Answer) : Call → Verdict
  | .setTenantMemberRole _ role =>
    if u = .admin ∧ role ≠ .admin ∧ others = 0 then .errLastTenantAdmin else .write role
  | .removeProjectMemberRevoking _ => if answer.remaining = 0 ∧ u = .deptLead then .write .none else .keep
  | .addProjectMemberGranting _ => if u = .none then .write .deptLead else .keep
  | .redeemInviteForExistingUser _ =>
    if answer.memberRole ≠ .none ∨ answer.projectID > 0 then
      if u = .admin then .write .admin
      else .write (if answer.memberRole = .none then .deptLead else answer.memberRole)
    else .keep

inductive Phase
  | start
  | read (role : Role)
  | decided (role : Role)
  | written (role : Role)
  | finished

structure State where
  users : List ℕ
  roles : ℕ → Option Role
  locks : ℕ → Option ℕ := fun _ => none
  phase : ℕ → Phase := fun _ => .start
  losses : ℕ := 0
  readAt : ℕ → ℕ := fun _ => 0

inductive Event
  | read (t : ℕ)
  | decide (t : ℕ) (answer : Answer)
  | write (t : ℕ)
  | commit (t : ℕ)
  | fail (t : ℕ)

def State.others (s : State) (userID : ℕ) : ℕ := (s.users.filter fun v => v ≠ userID ∧ s.roles v = some .admin).length

def State.setPhase (s : State) (t : ℕ) (p : Phase) : State := { s with phase := Function.update s.phase t p }

def State.unlock (s : State) (t : ℕ) : State :=
  { s with locks := fun u => if s.locks u = some t then none else s.locks u }

/-- The commit of the call takes the role of an admin. -/
def State.loses (s : State) (calls : ℕ → Call) (t : ℕ) : Bool :=
  match s.phase t with
  | .written role => role ≠ .admin && s.roles (calls t).userID = some .admin
  | _ => false

def step (calls : ℕ → Call) (s : State) : Event → State
  | .read t =>
    match s.phase t,s.roles (calls t).userID with
    | .start,some role => { s.setPhase t (.read role) with readAt := Function.update s.readAt t s.losses }
    | .start,none => s.setPhase t .finished
    | _,_ => s
  | .decide t answer =>
    match s.phase t with
    | .read role =>
      match (calls t).verdict role (s.others (calls t).userID) answer with
      | .write role => s.setPhase t (.decided role)
      | .errLastTenantAdmin | .keep => s.setPhase t .finished
    | _ => s
  | .write t =>
    match s.phase t,s.locks (calls t).userID with
    | .decided role,none =>
    { s.setPhase t (.written role) with locks := Function.update s.locks (calls t).userID (some t) }
    | _,_ => s
  | .commit t =>
    match s.phase t with
    | .written role =>
      { (s.setPhase t .finished).unlock t with
        roles := fun u => if u = (calls t).userID then (s.roles u).map fun _ => role else s.roles u
        losses := if s.loses calls t then s.losses+1 else s.losses }
    | _ => s
  | .fail t => (s.setPhase t .finished).unlock t

def init (users : List ℕ) (role : ℕ → Role) : State where
  users := users
  roles u := if u ∈ users then some (role u) else none

def HasAdmin (s : State) : Prop := ∃ u ∈ s.users, s.roles u = some .admin
  deriving Decidable

/-- A call does not take the role of an admin where another has between its read and its commit. -/
def Undisturbed (calls : ℕ → Call) (s : State) : Event → Prop
  | .commit t => s.loses calls t → s.readAt t = s.losses
  | _ => True

def OtherAdmin (users : List ℕ) (roles : ℕ → Option Role) (userID : ℕ) : Prop :=
  ∃ v ∈ users, v ≠ userID ∧ roles v = some .admin

/-- Whoever reads another role than that of an admin knows another admin. -/
def Current (users : List ℕ) (roles : ℕ → Option Role) (userID : ℕ) : Phase → Prop
  | .read role | .decided role | .written role => role = .admin ∨ OtherAdmin users roles userID
  | _ => True

structure Inv (calls : ℕ → Call) (s : State) : Prop where
  admin : HasAdmin s
  readAt_le : ∀ t, s.readAt t ≤ s.losses
  current : ∀ t, s.readAt t = s.losses → Current s.users s.roles (calls t).userID (s.phase t)

variable {s : State}

lemma Inv.setPhase (h : Inv calls s) (hp : s.readAt t = s.losses → Current s.users s.roles (calls t).userID p) :
    Inv calls (s.setPhase t p) where
  admin := h.admin
  readAt_le := h.readAt_le
  current t' hread := by
    by_cases ht : t' = t
    · subst ht
      simpa only [State.setPhase,update_self] using hp hread
    · simpa only [State.setPhase,update_of_ne ht] using h.current t' hread

lemma Inv.finish (h : Inv calls s) (t : ℕ) : Inv calls (s.setPhase t .finished) := h.setPhase fun _ => trivial

lemma current_of_verdict {call : Call} {u role : Role} {answer : Answer}
    (hu : u = .admin ∨ OtherAdmin s.users s.roles call.userID)
    (hver : call.verdict u (s.others call.userID) answer = .write role) :
    role = .admin ∨ OtherAdmin s.users s.roles call.userID := by
  refine hu.elim (fun hadmin => ?_) Or.inr
  subst hadmin
  cases call with
  | setTenantMemberRole userID role' =>
    simp only [Call.verdict] at hver
    split_ifs at hver with hlast
    cases hver
    by_cases hrole : role = .admin
    · exact Or.inl hrole
    · have hoth : s.others userID ≠ 0 := fun hzero => hlast ⟨trivial,hrole,hzero⟩
      obtain ⟨v,hv⟩ := List.exists_mem_of_ne_nil _ (List.length_pos_iff.mp (Nat.pos_of_ne_zero hoth))
      obtain ⟨hmem,hv⟩ := List.mem_filter.mp hv
      exact Or.inr ⟨v,hmem,of_decide_eq_true hv⟩
  | removeProjectMemberRevoking userID | addProjectMemberGranting userID => simp [Call.verdict] at hver
  | redeemInviteForExistingUser userID =>
    simp only [Call.verdict] at hver
    split_ifs at hver
    cases hver
    exact Or.inl rfl

lemma admin_stays {role : Role} {userID : ℕ} (h : role = .admin ∨ s.roles userID ≠ some .admin) {v : ℕ}
    (hv : s.roles v = some .admin) :
    (if v = userID then (s.roles v).map fun _ => role else s.roles v) = some .admin := by
  by_cases hvu : v = userID
  · subst hvu
    rw [if_pos rfl,hv,h.resolve_right (not_not.mpr hv)]
    rfl
  · rw [if_neg hvu,hv]

lemma Current.mono {users : List ℕ} {roles roles' : ℕ → Option Role} {userID : ℕ} {p : Phase}
    (h : Current users roles userID p) (hstays : ∀ v, roles v = some .admin → roles' v = some .admin) :
    Current users roles' userID p := by
  cases p with
  | start | finished => trivial
  | read | decided | written => exact h.imp_right fun ⟨v,hv,hne,hrole⟩ => ⟨v,hv,hne,hstays v hrole⟩

lemma Inv.step (h : Inv calls s) (e : Event) (hund : Undisturbed calls s e) : Inv calls (step calls s e) := by
  cases e with
  | read t =>
    simp only [TenantAdmins.step]
    split
    next role _ hrole =>
      refine ⟨h.admin,fun t' => ?_,fun t' hread => ?_⟩ <;> by_cases ht : t' = t
      · simp [ht,State.setPhase]
      · simpa [State.setPhase,update_of_ne ht] using h.readAt_le t'
      · subst ht
        simp only [State.setPhase,update_self]
        obtain ⟨v,hv,hadmin⟩ := h.admin
        by_cases hvu : v = (calls t').userID
        · subst hvu
          exact Or.inl (Option.some.inj (hrole.symm.trans hadmin))
        · exact Or.inr ⟨v,hv,hvu,hadmin⟩
      · simp only [State.setPhase,update_of_ne ht] at hread ⊢
        exact h.current t' hread
    next => exact h.finish t
    next => exact h
  | decide t answer =>
    simp only [TenantAdmins.step]
    split
    next role hphase =>
      split
      next role' hver =>
        refine h.setPhase fun hread => ?_
        have hcur := h.current t hread
        rw [hphase] at hcur
        exact current_of_verdict hcur hver
      next => exact h.finish t
      next => exact h.finish t
    next => exact h
  | write t =>
    simp only [TenantAdmins.step]
    split
    next role hphase _ =>
      have hwritten := h.setPhase (p:=.written role) fun hread => by
        have hcur := h.current t hread
        rwa [hphase] at hcur
      exact ⟨hwritten.admin,hwritten.readAt_le,hwritten.current⟩
    next => exact h
  | commit t =>
    simp only [TenantAdmins.step]
    split
    next role hphase =>
      by_cases hloses : s.loses calls t
      · -- No call has read after this commit yet.
        have hcur := h.current t (hund hloses)
        rw [hphase] at hcur
        have hrole : role ≠ .admin := by
          rw [State.loses,hphase] at hloses
          simpa using (Bool.and_eq_true_iff.mp hloses).1
        obtain ⟨v,hv,hne,hadmin⟩ := hcur.resolve_left hrole
        simp only [hloses,if_true]
        refine ⟨⟨v,hv,by simp [hne,hadmin]⟩,fun t' => Nat.le_succ_of_le (h.readAt_le t'),fun t' hread => ?_⟩
        exact absurd hread (Nat.ne_of_lt (Nat.lt_succ_of_le (h.readAt_le t')))
      · have hkeeps : role = .admin ∨ s.roles (calls t).userID ≠ some .admin := by
          rw [State.loses,hphase] at hloses
          simpa [← or_iff_not_imp_left] using hloses
        simp only [hloses,Bool.false_eq_true,if_false]
        obtain ⟨v,hv,hadmin⟩ := h.admin
        exact ⟨⟨v,hv,admin_stays hkeeps hadmin⟩,h.readAt_le,
          fun t' hread => ((h.finish t).current t' hread).mono fun v => admin_stays hkeeps⟩
    next => exact h
  | fail t => exact ⟨h.admin,h.readAt_le,(h.finish t).current⟩

theorem tenant_keeps_admin (calls : ℕ → Call) (users : List ℕ) (role : ℕ → Role) (events : List Event)
    (hadmin : ∃ u ∈ users, role u = .admin)
    (hundisturbed : Transition.Along (step calls) (Undisturbed calls) (init users role) events) :
    HasAdmin (Transition.run (step calls) (init users role) events) := by
  have hinit : Inv calls (init users role) := by
    obtain ⟨u,hu,hrole⟩ := hadmin
    exact ⟨⟨u,hu,by simp [init,hu,hrole]⟩,fun _ => Nat.le_refl _,fun _ _ => trivial⟩
  exact (Transition.run_invariant (fun _ e h hundisturbed => h.step e hundisturbed) hinit hundisturbed).admin

def demotions (t : ℕ) : Call := .setTenantMemberRole t .none

theorem second_demotion_refused : HasAdmin (Transition.run (step demotions) (init [1,2] fun _ => .admin)
    [.read 1,.decide 1 {},.write 1,.commit 1,.read 2,.decide 2 {},.write 2,.commit 2]) :=
  tenant_keeps_admin demotions [1,2] (fun _ => .admin) _ ⟨1,by simp,rfl⟩
    (by simp [Transition.Along,Undisturbed,State.loses,step,init,demotions,Call.verdict,Call.userID,
      State.others,State.setPhase,State.unlock])

theorem demotions_cross : ¬HasAdmin (Transition.run (step demotions) (init [1,2] fun _ => .admin)
    [.read 1,.decide 1 {},.read 2,.decide 2 {},.write 1,.write 2,.commit 1,.commit 2]) := by
  decide +kernel

end LurusHub.TenantAdmins
