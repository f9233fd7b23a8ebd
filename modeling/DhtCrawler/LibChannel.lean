import Mathlib.Data.List.Basic

/-! Bounded channels with one receiver. What was sent stays receivable after the channel was closed or the last
sender is gone; the end is seen only when nothing is left. -/

structure Channel (α : Type) where
  capacity : ℕ
  buffer : List α
  closed : Bool
  attached : Bool

namespace Channel

variable {α : Type} {c c' : Channel α} {a : α}

def new (capacity : ℕ) : Channel α where
  capacity := capacity
  buffer := []
  closed := false
  attached := true

def trySend (c : Channel α) (a : α) : Channel α × Bool :=
  if !c.closed && c.attached && decide (c.buffer.length < c.capacity) then
    ({ c with buffer := c.buffer ++ [a] }, true)
  else (c, false)

def close (c : Channel α) : Channel α := { c with closed := true }

def detach (c : Channel α) : Channel α := { c with attached := false }

def recv (c : Channel α) : Option (Option α × Channel α) :=
  match c.buffer with
  | a :: buffer => some (some a, { c with buffer })
  | [] => if c.closed || !c.attached then some (none, c) else none

structure Ended (c : Channel α) : Prop where
  drained : c.buffer = []
  shut : c.closed = true ∨ c.attached = false

lemma trySend_cases (c : Channel α) (a : α) :
    c.trySend a = (c, false) ∨
      (c.closed = false ∧ c.attached = true) ∧ c.trySend a = ({ c with buffer := c.buffer ++ [a] }, true) := by
  unfold trySend
  split_ifs with h
  · simp only [Bool.and_eq_true, Bool.not_eq_true'] at h
    exact .inr ⟨h.1, rfl⟩
  · exact .inl rfl

lemma mem_trySend {b : α} (h : b ∈ (c.trySend a).1.buffer) : b ∈ c.buffer ∨ b = a := by
  rcases c.trySend_cases a with heq | ⟨-, heq⟩
  · rw [heq] at h
    exact .inl h
  · rw [heq] at h
    rcases List.mem_append.mp h with hb | hb
    · exact .inl hb
    · exact .inr (List.mem_singleton.mp hb)

lemma mem_trySend_of_mem {b : α} (h : b ∈ c.buffer) : b ∈ (c.trySend a).1.buffer := by
  rcases c.trySend_cases a with heq | ⟨-, heq⟩
  · rw [heq]
    exact h
  · rw [heq]
    exact List.mem_append_left _ h

lemma Ended.trySend (h : c.Ended) (a : α) : (c.trySend a).1 = c := by
  rcases c.trySend_cases a with heq | ⟨⟨hclosed, hattached⟩, -⟩
  · rw [heq]
  · rcases h.shut with hshut | hshut
    · rw [hclosed] at hshut
      cases hshut
    · rw [hattached] at hshut
      cases hshut

lemma Ended.close (h : c.Ended) : c.close.Ended := ⟨h.drained, .inl rfl⟩

lemma Ended.detach (h : c.Ended) : c.detach.Ended := ⟨h.drained, .inr rfl⟩

lemma recv_some (h : c.recv = some (some a, c')) :
    c.buffer = a :: c'.buffer ∧ c' = { c with buffer := c'.buffer } := by
  unfold recv at h
  split at h
  · rename_i b buffer hbuffer
    cases h
    exact ⟨hbuffer, rfl⟩
  · split_ifs at h
    cases h

lemma recv_none (h : c.recv = some (none, c')) : c.Ended ∧ c' = c := by
  unfold recv at h
  split at h
  · cases h
  · rename_i hbuffer
    split_ifs at h with hshut
    cases h
    refine ⟨⟨hbuffer, ?_⟩, rfl⟩
    rcases Bool.or_eq_true_iff.mp hshut with hclosed | hattached
    · exact .inl hclosed
    · exact .inr (by simpa using hattached)

/-! ### Sending with the reason of a refusal -/

inductive TrySendError where
  | full
  | closed
  deriving DecidableEq, Repr

def offer (c : Channel α) (a : α) : Except TrySendError (Channel α) :=
  if c.closed then .error .closed
  else if c.buffer.length < c.capacity then .ok { c with buffer := c.buffer ++ [a] }
  else .error .full

def HasSpace (c : Channel α) : Prop := c.closed = false ∧ c.buffer.length < c.capacity

instance (c : Channel α) : Decidable c.HasSpace := inferInstanceAs (Decidable (_ ∧ _))

lemma offer_ok_iff {c c' : Channel α} {a : α} :
    c.offer a = .ok c' ↔ c.HasSpace ∧ c' = { c with buffer := c.buffer ++ [a] } := by
  cases hclosed : c.closed with
  | true => simp [offer, HasSpace, hclosed]
  | false =>
    by_cases hroom : c.buffer.length < c.capacity
    · simp [offer, HasSpace, hclosed, hroom, eq_comm]
    · simp [offer, HasSpace, hclosed, hroom]

lemma offer_closed_iff {c : Channel α} {a : α} : c.offer a = .error .closed ↔ c.closed = true := by
  cases hclosed : c.closed with
  | true => simp [offer, hclosed]
  | false => by_cases hroom : c.buffer.length < c.capacity <;> simp [offer, hclosed, hroom]

lemma offer_full_iff {c : Channel α} {a : α} : c.offer a = .error .full ↔ c.closed = false ∧ ¬ c.HasSpace := by
  cases hclosed : c.closed with
  | true => simp [offer, hclosed]
  | false => by_cases hroom : c.buffer.length < c.capacity <;> simp [offer, HasSpace, hclosed, hroom]

end Channel
