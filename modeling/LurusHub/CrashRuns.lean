import Mathlib.Data.List.Basic

/-! Programs that change a store one statement at a time and can be interrupted. Each statement is
done, fails, or is done with its reply lost; a process without a further reply has stopped, so
shorter lists of replies give every state in the middle. In a triple `Q` holds when the program
returns and the crash condition `C` wherever it breaks off. -/
namespace LurusHub.CrashRuns

inductive Reply where
  | done
  | failed (cause : String)
  | lost (cause : String)
  deriving DecidableEq

inductive Ended (α : Type) where
  | returned (a : α)
  | error (message : String)
  | stopped
  deriving DecidableEq

structure Outcome (σ α : Type) where
  ended : Ended α
  store : σ
  replies : List Reply

/-- A program over the store `σ`, run against the replies of the environment. -/
def Program (σ α : Type) := σ → List Reply → Outcome σ α

variable {σ α β : Type}

namespace Program

protected def pure (a : α) : Program σ α := fun s rs => ⟨.returned a,s,rs⟩

protected def bind (m : Program σ α) (f : α → Program σ β) : Program σ β := fun s rs =>
  match m s rs with
  | ⟨.returned a,s,rs⟩ => f a s rs
  | ⟨.error message,s,rs⟩ => ⟨.error message,s,rs⟩
  | ⟨.stopped,s,rs⟩ => ⟨.stopped,s,rs⟩

instance : Monad (Program σ) where
  pure := Program.pure
  bind := Program.bind

/-- One statement; its error is told with the words of the caller. -/
def statement (words : String) (read : σ → α) (write : σ → σ) : Program σ α
  | s,[] => ⟨.stopped,s,[]⟩
  | s,.done::rs => ⟨.returned (read s),write s,rs⟩
  | s,.failed cause::rs => ⟨.error (words++cause),s,rs⟩
  | s,.lost cause::rs => ⟨.error (words++cause),write s,rs⟩

def select (words : String) (read : σ → α) : Program σ α := statement words read id

def execute (words : String) (write : σ → σ) : Program σ Unit := statement words (fun _ => ()) write

/-- A look at the store whose outcome the program takes as it is. -/
def observe (read : σ → α) : Program σ α := fun s rs => ⟨.returned (read s),s,rs⟩

def fail (message : String) : Program σ α := fun s rs => ⟨.error message,s,rs⟩

/-- The error as a value, for a caller that goes on. -/
def attempt (m : Program σ α) : Program σ (Except String α) := fun s rs =>
  match m s rs with
  | ⟨.returned a,s,rs⟩ => ⟨.returned (.ok a),s,rs⟩
  | ⟨.error message,s,rs⟩ => ⟨.returned (.error message),s,rs⟩
  | ⟨.stopped,s,rs⟩ => ⟨.stopped,s,rs⟩

/-- Handle batches until one comes back empty, for at most so many rounds. -/
def drainRounds (batch : Program σ ℕ) : ℕ → ℕ → Program σ ℕ
  | 0,_ => fun s rs => ⟨.stopped,s,rs⟩
  | rounds+1,total => do
    let n ← batch
    if n = 0 then pure total else drainRounds batch rounds (total+n)

/-- Handle batches until one comes back empty, counting the items. Every round needs a reply, so the
rounds do not run out first. -/
def drainFrom (batch : Program σ ℕ) (total : ℕ) : Program σ ℕ := fun s rs =>
  drainRounds batch (rs.length+1) total s rs

def drain (batch : Program σ ℕ) : Program σ ℕ := drainFrom batch 0

def Asks (m : Program σ α) : Prop :=
  ∀ s rs a, (m s rs).ended = .returned a → (m s rs).replies.length < rs.length

def Spends (m : Program σ α) : Prop := ∀ s rs, (m s rs).replies.length ≤ rs.length

lemma spends_pure (a : α) : Spends (pure a : Program σ α) := fun _ _ => Nat.le_refl _

lemma spends_statement (words : String) (read : σ → α) (write : σ → σ) : Spends (statement words read write) := by
  intro s rs
  cases rs with
  | nil => exact Nat.le_refl _
  | cons r rs => cases r <;> exact Nat.le_succ _

lemma asks_statement (words : String) (read : σ → α) (write : σ → σ) : Asks (statement words read write) := by
  intro s rs a ha
  cases rs with
  | nil => cases ha
  | cons r rs => cases r <;> exact Nat.lt_succ_self _

lemma Spends.bind (hm : Spends m) (hf : ∀ a, Spends (f a)) : Spends (m >>= f) := by
  intro s rs
  have hle := hm s rs
  change (Program.bind m f s rs).replies.length ≤ rs.length
  rcases hr : m s rs with ⟨ended,s',rs'⟩
  rw [hr] at hle
  cases ended with
  | returned a => simpa [Program.bind,hr] using Nat.le_trans (hf a s' rs') hle
  | error message | stopped => simpa [Program.bind,hr] using hle

lemma Asks.bind (hm : Asks m) (hf : ∀ a, Spends (f a)) : Asks (m >>= f) := by
  intro s rs b
  have hasks := hm s rs
  change (Program.bind m f s rs).ended = .returned b → (Program.bind m f s rs).replies.length < rs.length
  rcases hr : m s rs with ⟨ended,s',rs'⟩
  rw [hr] at hasks
  cases ended with
  | returned a => simpa [Program.bind,hr] using fun _ => Nat.lt_of_le_of_lt (hf a s' rs') (hasks a rfl)
  | error message | stopped => simp [Program.bind,hr]

lemma drainRounds_congr (h : Asks batch)
    (hr : rs.length < rounds) (hr' : rs.length < rounds') (total : ℕ) (s : σ) :
    drainRounds batch rounds total s rs = drainRounds batch rounds' total s rs := by
  induction rounds generalizing rounds' total s rs with
  | zero => omega
  | succ rounds ih =>
    obtain ⟨rounds',rfl⟩ := Nat.exists_eq_add_one_of_ne_zero (show rounds' ≠ 0 by omega)
    have hasks := h s rs
    change Program.bind batch _ s rs = Program.bind batch _ s rs
    rcases hb : batch s rs with ⟨ended,s',rs'⟩
    rw [hb] at hasks
    cases ended with
    | error message | stopped => simp [Program.bind,hb]
    | returned n =>
      have hlt : rs'.length < rs.length := hasks n rfl
      by_cases hn : n = 0
      · simp [Program.bind,hb,hn]
      · simpa [Program.bind,hb,hn] using ih (by omega) (by omega) (total+n) s'

theorem drainFrom_eq (h : Asks batch) :
    drainFrom batch total = (do let n ← batch; if n = 0 then pure total else drainFrom batch (total+n)) := by
  funext s rs
  have hasks := h s rs
  change Program.bind batch _ s rs = Program.bind batch _ s rs
  rcases hb : batch s rs with ⟨ended,s',rs'⟩
  rw [hb] at hasks
  cases ended with
  | error message | stopped => simp [Program.bind,hb]
  | returned n =>
    have hlt : rs'.length < rs.length := hasks n rfl
    by_cases hn : n = 0
    · simp [Program.bind,hb,hn]
    · simpa [Program.bind,hb,hn,drainFrom] using drainRounds_congr h (by omega) (by omega) (total+n) s'

end Program

open Program

/-- From `P`, the program returns in `Q` or breaks off in `C`. -/
def Triple (P : σ → Prop) (m : Program σ α) (Q : α → σ → Prop) (C : σ → Prop) : Prop :=
  ∀ s rs, P s → (∀ a, (m s rs).ended = .returned a → Q a (m s rs).store) ∧
    ((∀ a, (m s rs).ended ≠ .returned a) → C (m s rs).store)

namespace Triple

variable {P P' : σ → Prop} {Q Q' : α → σ → Prop} {C C' : σ → Prop}

variable {m : Program σ α}

lemma mono (h : Triple P m Q C) (hP : ∀ s, P' s → P s) (hQ : ∀ a s, Q a s → Q' a s)
    (hC : ∀ s, C s → C' s) : Triple P' m Q' C' := by
  intro s rs hs
  have hm := h s rs (hP s hs)
  exact ⟨fun a ha => hQ a _ (hm.1 a ha),fun hno => hC _ (hm.2 hno)⟩

lemma store (h : Triple P m (fun _ => C) C) (hs : P s) (rs : List Reply) : C (m s rs).store := by
  have hm := h s rs hs
  by_cases hr : ∃ a, (m s rs).ended = .returned a
  · obtain ⟨a,ha⟩ := hr
    exact hm.1 a ha
  · exact hm.2 fun a ha => hr ⟨a,ha⟩

lemma pure (h : ∀ s, P s → Q a s) : Triple P (pure a) Q C := by
  intro s rs hs
  refine ⟨fun b hb => ?_,fun hno => absurd rfl (hno a)⟩
  cases hb
  exact h s hs

lemma bind (hm : Triple P m Q C) (hf : ∀ a, Triple (Q a) (f a) R C) : Triple P (m >>= f) R C := by
  intro s rs hs
  have h := hm s rs hs
  change (∀ b, (Program.bind m f s rs).ended = .returned b → R b (Program.bind m f s rs).store) ∧
    ((∀ b, (Program.bind m f s rs).ended ≠ .returned b) → C (Program.bind m f s rs).store)
  rcases hr : m s rs with ⟨ended,s',rs'⟩
  rw [hr] at h
  cases ended with
  | returned a => simpa [Program.bind,hr] using hf a s' rs' (h.1 a rfl)
  | error message | stopped => simpa [Program.bind,hr] using h.2

theorem statement {read : σ → α} (hQ : ∀ s, P s → Q (read s) (write s))
    (hC : ∀ s, P s → C s) (hCw : ∀ s, P s → C (write s)) : Triple P (statement words read write) Q C := by
  intro s rs hs
  cases rs with
  | nil => simpa [Program.statement] using hC s hs
  | cons r rs =>
    cases r with
    | done => simpa [Program.statement] using hQ s hs
    | failed cause => simpa [Program.statement] using hC s hs
    | lost cause => simpa [Program.statement] using hCw s hs

lemma select {read : σ → α} (hQ : ∀ s, P s → Q (read s) s) (hC : ∀ s, P s → C s) :
    Triple P (select words read) Q C :=
  Triple.statement hQ hC hC

lemma observe {read : σ → α} (hQ : ∀ s, P s → Q (read s) s) : Triple P (observe read) Q C := by
  intro s rs hs
  simpa [Program.observe] using hQ s hs

lemma fail (hC : ∀ s, P s → C s) : Triple P (fail message) Q C := by
  intro s rs hs
  simpa [Program.fail] using hC s hs

/-- What is known after an attempt: a caught error leaves the crash condition. -/
def caught (Q : α → σ → Prop) (C : σ → Prop) : Except String α → σ → Prop
  | .ok a => Q a
  | .error _ => C

lemma attempt (h : Triple P m Q C) : Triple P (attempt m) (caught Q C) C := by
  intro s rs hs
  have hm := h s rs hs
  rcases hr : m s rs with ⟨ended,s',rs'⟩
  rw [hr] at hm
  cases ended with
  | returned a => simpa [Program.attempt,hr,caught] using hm.1 a rfl
  | error message => simpa [Program.attempt,hr,caught] using hm.2 (by simp)
  | stopped => simpa [Program.attempt,hr] using hm.2 (by simp)

lemma attempt_same (h : Triple P m (fun _ => C) C) : Triple P m.attempt (fun _ => C) C := by
  refine h.attempt.mono (fun _ hs => hs) (fun r s hr => ?_) fun _ hs => hs
  cases r <;> exact hr

theorem drain {I D : σ → Prop} (h : Triple I batch (fun n s => I s ∧ (n = 0 → D s)) C)
    (hC : ∀ s, I s → C s) : Triple I (drain batch) (fun _ s => I s ∧ D s) C := by
  have hrounds : ∀ rounds total, Triple I (drainRounds batch rounds total) (fun _ s => I s ∧ D s) C := by
    intro rounds
    induction rounds with
    | zero =>
      intro total s rs hs
      simpa [drainRounds] using hC s hs
    | succ rounds ih =>
      intro total
      apply bind h
      intro n
      by_cases hn : n = 0
      · rw [if_pos hn]
        exact pure fun s hs => ⟨hs.1,hs.2 hn⟩
      · rw [if_neg hn]
        exact (ih (total+n)).mono (fun s hs => hs.1) (fun _ _ hs => hs) fun _ hs => hs
  exact fun s rs hs => hrounds (rs.length+1) 0 s rs hs

end Triple

/-- Left alone from here on, the program returns. -/
def Returns (m : Program σ α) (Q : α → σ → Prop) (s : σ) : Prop :=
  ∃ n a s', Q a s' ∧ ∀ rs, m s (List.replicate n .done++rs) = ⟨.returned a,s',rs⟩

namespace Returns

variable {Q : α → σ → Prop} {s : σ}

lemma pure (h : Q a s) : Returns (pure a) Q s := ⟨0,a,s,h,fun _ => rfl⟩

lemma bind (hm : Returns m Q s) (hf : ∀ a s', Q a s' → Returns (f a) R s') : Returns (m >>= f) R s := by
  obtain ⟨n,a,s',ha,hrun⟩ := hm
  obtain ⟨k,b,s'',hb,hrun'⟩ := hf a s' ha
  refine ⟨n+k,b,s'',hb,fun rs => ?_⟩
  change Program.bind m f s _ = _
  rw [← List.replicate_append_replicate,List.append_assoc,Program.bind,hrun]
  exact hrun' rs

lemma statement {read : σ → α} (h : Q (read s) (write s)) : Returns (statement words read write) Q s :=
  ⟨1,read s,write s,h,fun _ => rfl⟩

lemma next {read : σ → α}
    (h : Returns (f (read s)) R (write s)) : Returns (Program.statement words read write >>= f) R s := by
  refine bind (statement (Q := fun a s' => a = read s ∧ s' = write s) ⟨rfl,rfl⟩) ?_
  rintro _ _ ⟨rfl,rfl⟩
  exact h

lemma observe {read : σ → α} (h : Q (read s) s) : Returns (observe read) Q s :=
  ⟨0,read s,s,h,fun _ => rfl⟩

lemma drain (hasks : Asks batch) (size : σ → ℕ)
    (h : ∀ s, Returns batch (fun n s' => n = 0 ∨ size s' < size s) s) : Returns (drain batch) (fun _ _ => True) s := by
  have hfrom : ∀ k s total, size s < k → Returns (drainFrom batch total) (fun _ _ => True) s := by
    intro k
    induction k with
    | zero => exact fun _ _ hk => absurd hk (Nat.not_lt_zero _)
    | succ k ih =>
      intro s total hk
      rw [drainFrom_eq hasks]
      refine bind (h s) fun n s' hn => ?_
      by_cases hzero : n = 0
      · rw [if_pos hzero]
        exact pure trivial
      · rw [if_neg hzero]
        exact ih s' (total+n) (by have := hn.resolve_left hzero; omega)
  exact hfrom (size s+1) s 0 (Nat.lt_succ_self _)

end Returns

end LurusHub.CrashRuns
