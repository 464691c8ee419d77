import Mathlib.Tactic.Basic

/-! One row of a table under read committed. A transaction that has locked or written the row holds
it with its own version until it ends; other writers wait, and plain readers see the committed row.
Selecting an absent row for update takes nothing. `Frame` is what an operation leaves to the other
transactions. -/
namespace LurusHub

structure LockedRow (X T : Type*) where
  committed : Option X
  held : Option (T × Option X)

namespace LockedRow

inductive Attempt (α : Type*) where
  | waits
  | refused
  | done (a : α)

variable {X T : Type*} [DecidableEq T]

def pending (t : T) (r : LockedRow X T) : Option (Option X) :=
  match r.held with
  | some (t',p) => if t' = t then some p else none
  | none => none

def view (t : T) (r : LockedRow X T) : Option X := (r.pending t).getD r.committed

def heldByOther (t : T) (r : LockedRow X T) : Prop := r.held ≠ none ∧ r.pending t = none

instance (t : T) (r : LockedRow X T) : Decidable (r.heldByOther t) :=
  inferInstanceAs (Decidable (_ ∧ _))

/-- `SELECT ... FOR UPDATE`. -/
def selectForUpdate (t : T) (r : LockedRow X T) : Attempt (Option X × LockedRow X T) :=
  match r.view t with
  | none => .done (none,r)
  | some x => if r.heldByOther t then .waits else .done (some x,{ r with held := some (t,some x) })

/-- An update of the row, or its insert when there is none. -/
def write (t : T) (x : X) (r : LockedRow X T) : Attempt (LockedRow X T) :=
  if r.heldByOther t then .waits else .done { r with held := some (t,some x) }

/-- `INSERT ... ON CONFLICT DO NOTHING`. -/
def insertIfAbsent (t : T) (x : X) (r : LockedRow X T) : Attempt (LockedRow X T) :=
  match r.view t with
  | some _ => .done r
  | none => write t x r

/-- `UPDATE ... WHERE value = expected`: what the statement does not see it does not wait for. -/
def compareAndSet [DecidableEq X] (t : T) (expected new : X) (r : LockedRow X T) : Attempt (LockedRow X T) :=
  if r.view t = some expected then write t new r else .refused

def commit (t : T) (r : LockedRow X T) : LockedRow X T :=
  match r.pending t with
  | some p => ⟨p,none⟩
  | none => r

def rollback (t : T) (r : LockedRow X T) : LockedRow X T :=
  match r.pending t with
  | some _ => { r with held := none }
  | none => r

def put (x : X) (r : LockedRow X T) : Attempt (LockedRow X T) :=
  match r.held with
  | none => .done ⟨some x,none⟩
  | some _ => .waits

/-- An insert outside transactions; a taken key refuses it. -/
def insertNew (x : X) (r : LockedRow X T) : Attempt (LockedRow X T) :=
  match r.committed with
  | none => put x r
  | some _ => .refused

structure Frame (t : T) (r r' : LockedRow X T) : Prop where
  pending : ∀ t', t' ≠ t → r'.pending t' = r.pending t'
  committed : ∀ t', t' ≠ t → r.pending t' ≠ none → r'.committed = r.committed

section
variable {t : T} {r r' : LockedRow X T} {x : X}

@[simp] lemma pending_mk_self : (⟨c,some (t,p)⟩ : LockedRow X T).pending t = some p := by
  simp [pending]

lemma pending_mk_of_ne (h : t ≠ t') : (⟨c,some (t,p)⟩ : LockedRow X T).pending t' = none := by
  simp [pending,h]

variable {p o : Option X}

lemma held_of_pending (h : r.pending t = some p) : r.held = some (t,p) := by
  rcases r with ⟨c,held⟩
  cases held with
  | none => simp [pending] at h
  | some q =>
    rcases q with ⟨t',p'⟩
    by_cases ht : t' = t
    · simpa [pending] using h
    · simp [pending,ht] at h

lemma pending_of_not_heldByOther (h : ¬r.heldByOther t) (ht : t' ≠ t) : r.pending t' = none := by
  rcases r with ⟨c,held⟩
  cases held with
  | none => rfl
  | some q =>
    rcases q with ⟨t'',p⟩
    by_cases ht' : t'' = t'
    · subst ht'
      exact absurd ⟨by simp,by simp [pending,ht]⟩ h
    · simp [pending,ht']

lemma Frame.refl : Frame t r r := ⟨fun _ _ => rfl,fun _ _ _ => rfl⟩

lemma Frame.trans (h : Frame t r r') (h' : Frame t r' r'') : Frame t r r'' where
  pending := fun t' ht => (h'.pending t' ht).trans (h.pending t' ht)
  committed := fun t' ht hp =>
    (h'.committed t' ht (by rwa [h.pending t' ht])).trans (h.committed t' ht hp)

lemma frame_take (h : ¬r.heldByOther t) : Frame t r ⟨c,some (t,p)⟩ := by
  refine ⟨fun t' ht => ?_,fun t' ht hp => absurd (pending_of_not_heldByOther h ht) hp⟩
  rw [pending_of_not_heldByOther h ht,pending_mk_of_ne (Ne.symm ht)]

lemma frame_release (h : r.pending t = some p) : Frame t r ⟨c,none⟩ := by
  have hheld := held_of_pending h
  have hother : ∀ t', t' ≠ t → r.pending t' = none := by
    intro t' ht
    rcases r with ⟨c',held⟩
    subst hheld
    exact pending_mk_of_ne (Ne.symm ht)
  exact ⟨fun t' ht => (hother t' ht).symm,fun t' ht hp => absurd (hother t' ht) hp⟩

lemma view_of_pending_none (h : r.pending t = none) : r.view t = r.committed := by
  simp [view,h]

section
variable (h : r.selectForUpdate t = .done (o,r'))
include h

lemma selectForUpdate_done : r.view t = o ∧
    (o = none ∧ r' = r ∨ ∃ x, o = some x ∧ ¬r.heldByOther t ∧ r' = { r with held := some (t,some x) }) := by
  unfold selectForUpdate at h
  cases hv : r.view t with
  | none =>
    simp only [hv,Attempt.done.injEq,Prod.mk.injEq] at h
    exact ⟨h.1,Or.inl ⟨h.1.symm,h.2.symm⟩⟩
  | some x =>
    by_cases hother : r.heldByOther t
    · simp [hv,hother] at h
    · simp only [hv,hother,if_false,Attempt.done.injEq,Prod.mk.injEq] at h
      exact ⟨h.1,Or.inr ⟨x,h.1.symm,hother,h.2.symm⟩⟩

lemma frame_selectForUpdate : Frame t r r' := by
  rcases (selectForUpdate_done h).2 with ⟨_,rfl⟩ | ⟨x,_,hother,rfl⟩
  · exact Frame.refl
  · exact frame_take hother

lemma committed_selectForUpdate : r'.committed = r.committed := by
  rcases (selectForUpdate_done h).2 with ⟨_,rfl⟩ | ⟨x,_,_,rfl⟩ <;> rfl

lemma view_selectForUpdate : r'.view t = o := by
  obtain ⟨hview,⟨_,rfl⟩ | ⟨x,rfl,_,rfl⟩⟩ := selectForUpdate_done h
  · exact hview
  · simp [view]

end

lemma write_done (h : r.write t x = .done r') : ¬r.heldByOther t ∧ r' = { r with held := some (t,some x) } := by
  unfold write at h
  by_cases hother : r.heldByOther t
  · simp [hother] at h
  · simp only [hother,if_false,Attempt.done.injEq] at h
    exact ⟨hother,h.symm⟩

lemma frame_write (h : r.write t x = .done r') : Frame t r r' := by
  obtain ⟨hother,rfl⟩ := write_done h
  exact frame_take hother

lemma insertIfAbsent_done (h : r.insertIfAbsent t x = .done r') :
    r.view t = none ∧ r.write t x = .done r' ∨ r.view t ≠ none ∧ r' = r := by
  unfold insertIfAbsent at h
  cases hv : r.view t with
  | none => exact Or.inl ⟨rfl,by simpa [hv] using h⟩
  | some y => exact Or.inr ⟨by simp,by simpa [hv] using h.symm⟩

lemma compareAndSet_done [DecidableEq X] (h : r.compareAndSet t x new = .done r') :
    r.view t = some x ∧ r.write t new = .done r' := by
  unfold compareAndSet at h
  by_cases hv : r.view t = some x
  · exact ⟨hv,by simpa [hv] using h⟩
  · simp [hv] at h

lemma committed_commit : (r.commit t).committed = r.view t := by
  unfold commit view
  cases r.pending t <;> rfl

@[simp] lemma committed_rollback : (r.rollback t).committed = r.committed := by
  unfold rollback
  cases r.pending t <;> rfl

lemma frame_commit : Frame t r (r.commit t) := by
  unfold commit
  cases hp : r.pending t with
  | none => exact Frame.refl
  | some p => exact frame_release hp

lemma frame_rollback : Frame t r (r.rollback t) := by
  unfold rollback
  cases hp : r.pending t with
  | none => exact Frame.refl
  | some p => exact frame_release hp

omit [DecidableEq T] in
lemma put_done (h : r.put x = .done r') : r.held = none ∧ r' = ⟨some x,none⟩ := by
  unfold put at h
  cases hheld : r.held with
  | none => exact ⟨rfl,by simpa [hheld] using h.symm⟩
  | some q => simp [hheld] at h

omit [DecidableEq T] in
lemma insertNew_done (h : r.insertNew x = .done r') : r.committed = none ∧ r.put x = .done r' := by
  unfold insertNew at h
  cases hc : r.committed with
  | none => exact ⟨rfl,by simpa [hc] using h⟩
  | some y => simp [hc] at h

lemma frame_put (h : r.put x = .done r') : Frame t r r' := by
  obtain ⟨hheld,rfl⟩ := put_done h
  rcases r with ⟨c,held⟩
  subst hheld
  exact ⟨fun _ _ => rfl,fun _ _ hp => absurd rfl hp⟩

end

end LockedRow
end LurusHub
