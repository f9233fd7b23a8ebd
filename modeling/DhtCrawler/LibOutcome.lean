import Mathlib.Tactic.Common

/-! Fallible computations with a postcondition, and bounded loops. -/

namespace Except

open List

variable {ε α β : Type} {allowed : ε → Prop}

def Safe (allowed : ε → Prop) (x : Except ε α) (Q : α → Prop) : Prop :=
  match x with
  | .ok a => Q a
  | .error e => allowed e

abbrev Sure (x : Except ε α) (Q : α → Prop) : Prop := Safe (fun _ => False) x Q

@[simp]
lemma safe_ok (a : α) (Q : α → Prop) : Safe allowed (.ok a) Q ↔ Q a := Iff.rfl

@[simp]
lemma ok_bind (a : α) (f : α → Except ε β) : (Except.ok a >>= f) = f a := rfl

lemma Safe.bind {x : Except ε α} {f : α → Except ε β} {P : α → Prop} {Q : β → Prop}
    (hx : Safe allowed x P) (hf : ∀ a, P a → Safe allowed (f a) Q) : Safe allowed (x >>= f) Q := by
  cases x with
  | ok a => exact hf a hx
  | error e => exact hx

lemma Safe.mono {x : Except ε α} {P Q : α → Prop} (hx : Safe allowed x P) (h : ∀ a, P a → Q a) :
    Safe allowed x Q := by
  cases x with
  | ok a => exact h a hx
  | error e => exact hx

lemma Safe.weaken {x : Except ε α} {Q : α → Prop} {allowed' : ε → Prop} (hx : Safe allowed x Q)
    (h : ∀ e, allowed e → allowed' e) : Safe allowed' x Q := by
  cases x with
  | ok a => exact hx
  | error e => exact h e hx

lemma Safe.and {x : Except ε α} {P Q : α → Prop} (hP : Safe allowed x P) (hQ : Safe allowed x Q) :
    Safe allowed x fun a => P a ∧ Q a := by
  cases x with
  | ok a => exact ⟨hP, hQ⟩
  | error e => exact hP

lemma Safe.of_ok {x : Except ε α} {Q : α → Prop} {a : α} (hx : Safe allowed x Q) (h : x = .ok a) : Q a := by
  rw [h] at hx
  exact hx

lemma Safe.exists {x : Except ε α} {Q : α → Prop} (hx : Sure x Q) : ∃ a, x = .ok a ∧ Q a := by
  cases x with
  | ok a => exact ⟨a, rfl, hx⟩
  | error e => exact hx.elim

def isOkAnd (x : Except ε α) (test : α → Bool) : Bool :=
  match x with
  | .ok a => test a
  | .error _ => false

lemma isOkAnd_eq_true {x : Except ε α} {test : α → Bool} :
    x.isOkAnd test = true ↔ ∃ a, x = .ok a ∧ test a = true := by
  cases x with
  | ok a => exact ⟨fun h => ⟨a, rfl, h⟩, fun ⟨_, ha, h⟩ => by cases ha; exact h⟩
  | error e => exact ⟨fun h => (nomatch h), fun ⟨_, ha, _⟩ => nomatch ha⟩

lemma bind_eq_ok {x : Except ε α} {f : α → Except ε β} {b : β} :
    x >>= f = .ok b ↔ ∃ a, x = .ok a ∧ f a = .ok b := by
  cases x with
  | ok a => exact ⟨fun h => ⟨a, rfl, h⟩, fun ⟨a', ha, h⟩ => by cases ha; exact h⟩
  | error e => exact ⟨fun h => (nomatch h), fun ⟨a, ha, _⟩ => nomatch ha⟩

lemma safe_foldlM {P : β → Prop} {f : β → α → Except ε β} {xs : List α}
    (hf : ∀ b, ∀ x ∈ xs, P b → Safe allowed (f b x) P) {b : β} (hb : P b) : Safe allowed (xs.foldlM f b) P := by
  induction xs generalizing b with
  | nil => exact hb
  | cons x xs ih =>
    rw [foldlM_cons]
    exact (hf b x mem_cons_self hb).bind
      fun _ ha => ih (fun b' y hy => hf b' y (mem_cons_of_mem _ hy)) ha

lemma safe_foldlM_simulates {γ : Type} {R : β → γ → Prop} {f : β → α → Except ε β} {g : γ → α → γ}
    {xs : List α} (hf : ∀ b c, ∀ x ∈ xs, R b c → Safe allowed (f b x) fun b' => R b' (g c x)) {b : β}
    {c : γ} (h : R b c) : Safe allowed (xs.foldlM f b) fun b' => R b' (xs.foldl g c) := by
  induction xs generalizing b c with
  | nil => exact h
  | cons x xs ih =>
    rw [foldlM_cons]
    exact (hf b c x mem_cons_self h).bind
      fun _ ha => ih (fun b' c' y hy => hf b' c' y (mem_cons_of_mem _ hy)) ha

end Except

namespace Loop

variable {ε σ τ : Type} {allowed : ε → Prop}

def run (body : σ → Except ε (ForInStep σ)) : ℕ → σ → Except ε σ
  | 0, s => .ok s
  | n + 1, s => do
      match ← body s with
      | .done s' => .ok s'
      | .yield s' => run body n s'

def iterate (body : σ → ForInStep σ) : ℕ → σ → σ
  | 0, s => s
  | n + 1, s =>
    match body s with
    | .done s' => s'
    | .yield s' => iterate body n s'

def Verdict (P Q : σ → Prop) : ForInStep σ → Prop
  | .done s => Q s
  | .yield s => P s

def Round (P Q : σ → Prop) (μ : σ → ℕ) (bound : ℕ) : ForInStep σ → Prop
  | .done s => Q s
  | .yield s => P s ∧ μ s < bound

lemma safe_run {body : σ → Except ε (ForInStep σ)} {P : σ → Prop}
    (hbody : ∀ s, P s → Except.Safe allowed (body s) fun r => P r.value) (n : ℕ) {s : σ} (hs : P s) :
    Except.Safe allowed (run body n s) P := by
  induction n generalizing s with
  | zero => exact hs
  | succ n ih =>
    refine (hbody s hs).bind fun r hr => ?_
    cases r with
    | done s' => exact hr
    | yield s' => exact ih hr

lemma safe_until {body : σ → Except ε (ForInStep σ)} {P Q : σ → Prop}
    (hbody : ∀ s, P s → Except.Safe allowed (body s) (Verdict P Q)) (hend : ∀ s, P s → Q s)
    (n : ℕ) {s : σ} (hs : P s) : Except.Safe allowed (run body n s) Q := by
  induction n generalizing s with
  | zero => exact hend s hs
  | succ n ih =>
    refine (hbody s hs).bind fun r hr => ?_
    cases r with
    | done s' => exact hr
    | yield s' => exact ih hr

lemma safe_run_succ {body : σ → Except ε (ForInStep σ)} {P : σ → Prop} {s : σ}
    (hfirst : Except.Safe allowed (body s) fun r => P r.value)
    (hbody : ∀ s, P s → Except.Safe allowed (body s) fun r => P r.value) (n : ℕ) :
    Except.Safe allowed (run body (n + 1) s) P := by
  refine hfirst.bind fun r hr => ?_
  cases r with
  | done s' => exact hr
  | yield s' => exact safe_run hbody n hr

lemma safe_exit {body : σ → Except ε (ForInStep σ)} {P Q : σ → Prop} (μ : σ → ℕ)
    (hbody : ∀ s, P s → Except.Safe allowed (body s) (Round P Q μ (μ s))) (n : ℕ) {s : σ} (hs : P s)
    (hn : μ s < n) : Except.Safe allowed (run body n s) Q := by
  induction n generalizing s with
  | zero => exact absurd hn (Nat.not_lt_zero _)
  | succ n ih =>
    refine (hbody s hs).bind fun r hr => ?_
    cases r with
    | done s' => exact hr
    | yield s' => exact ih hr.1 (Nat.lt_of_lt_of_le hr.2 (Nat.le_of_lt_succ hn))

inductive Ends (body : σ → Except ε (ForInStep σ)) : σ → σ → Prop where
  | done {s s'} (h : body s = .ok (.done s')) : Ends body s s'
  | yield {s mid s'} (h : body s = .ok (.yield mid)) (hrest : Ends body mid s') : Ends body s s'

lemma exists_ends {body : σ → Except ε (ForInStep σ)} {P Q : σ → Prop} (μ : σ → ℕ)
    (hbody : ∀ s, P s → Except.Sure (body s) (Round P Q μ (μ s))) (n : ℕ) {s : σ} (hs : P s)
    (hn : μ s < n) : ∃ s', run body n s = .ok s' ∧ Ends body s s' ∧ Q s' := by
  induction n generalizing s with
  | zero => exact absurd hn (Nat.not_lt_zero _)
  | succ n ih =>
    obtain ⟨r, hr, hround⟩ := (hbody s hs).exists
    rw [run, hr, Except.ok_bind]
    cases r with
    | done s' => exact ⟨s', rfl, .done hr, hround⟩
    | yield mid =>
      obtain ⟨s', hrun, hends, hQ⟩ := ih hround.1 (Nat.lt_of_lt_of_le hround.2 (Nat.le_of_lt_succ hn))
      exact ⟨s', hrun, .yield hr hends, hQ⟩

lemma iterate_inv {body : σ → ForInStep σ} {P : σ → Prop} (hbody : ∀ s, P s → P (body s).value)
    (n : ℕ) {s : σ} (hs : P s) : P (iterate body n s) := by
  induction n generalizing s with
  | zero => exact hs
  | succ n ih =>
    have h := hbody s hs
    rw [iterate]
    cases hb : body s with
    | done s' => rw [hb] at h; exact h
    | yield s' => rw [hb] at h; exact ih h

lemma iterate_exit {body : σ → ForInStep σ} {P Q : σ → Prop} (μ : σ → ℕ)
    (hbody : ∀ s, P s → Round P Q μ (μ s) (body s)) (n : ℕ) {s : σ} (hs : P s) (hn : μ s < n) :
    Q (iterate body n s) := by
  induction n generalizing s with
  | zero => exact absurd hn (Nat.not_lt_zero _)
  | succ n ih =>
    have h := hbody s hs
    rw [iterate]
    cases hb : body s with
    | done s' => rw [hb] at h; exact h
    | yield s' => rw [hb] at h; exact ih h.1 (Nat.lt_of_lt_of_le h.2 (Nat.le_of_lt_succ hn))

def Matching (R : σ → τ → Prop) : ForInStep σ → ForInStep τ → Prop
  | .done s, .done t => R s t
  | .yield s, .yield t => R s t
  | _, _ => False

lemma safe_run_simulates {R : σ → τ → Prop} {body : σ → Except ε (ForInStep σ)} {body' : τ → ForInStep τ}
    (hbody : ∀ s t, R s t → Except.Safe allowed (body s) fun x => Matching R x (body' t)) (n : ℕ) {s : σ}
    {t : τ} (h : R s t) : Except.Safe allowed (run body n s) fun s' => R s' (iterate body' n t) := by
  induction n generalizing s t with
  | zero => exact h
  | succ n ih =>
    refine (hbody s t h).bind fun x hx => ?_
    rw [iterate]
    cases hb : body' t with
    | done t' =>
      rw [hb] at hx
      cases x with
      | done s' => exact hx
      | yield s' => exact hx.elim
    | yield t' =>
      rw [hb] at hx
      cases x with
      | done s' => exact hx.elim
      | yield s' => exact ih hx

end Loop
