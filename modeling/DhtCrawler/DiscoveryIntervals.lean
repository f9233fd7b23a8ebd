import DhtCrawler.DiscoveryBookkeeping

/-! The intervals that nodes advertise. A node leaves the history only when its rest is over and is not asked before,
so the rest that a response, a timeout or a failed send brings is kept in every continuation of the run. -/

namespace DhtCrawler.Discovery.DiscoveryActor

open FiniteMap

variable {σ σ' : DiscoveryActor} {now : Instant}

variable {addr : SocketAddr} {u : Instant}

lemma Act.attempts_cases (hact : Act true σ σ') (h : σ.Sound) :
    σ'.attempts = σ.attempts ∨
      ∃ a, σ'.attempts = a :: σ.attempts ∧ a.startedAt = σ.clock ∧ σ.cooldowns.get a.addr = none ∧
        (a.sent = false → σ'.Barred a.addr (a.tickedAt + σ.failureDelay)) := by
  cases hact with
  | sent key now clock future deadline hkey hentry hflight hslot hclock =>
    exact .inr ⟨_, rfl, rfl, h.cooldown_none hentry, fun hsent => (nomatch hsent)⟩
  | unsent key now clock future hkey hentry hslot hclock =>
    exact .inr ⟨_, rfl, rfl, h.cooldown_none hentry, fun _ => barred_rest _ _ _ _⟩
  | _ => exact .inl rfl

lemma Acts.quiet (hacts : Acts true σ σ') (h : σ.Sound) (hbarred : σ.Barred addr u) :
    ∃ fresh, σ'.attempts = fresh ++ σ.attempts ∧ ∀ a ∈ fresh, a.addr = addr → u ≤ a.startedAt := by
  induction hacts with
  | refl => exact ⟨[], rfl, fun _ hmem => (nomatch hmem)⟩
  | tail hacts hact ih =>
    obtain ⟨fresh, heq, hfresh⟩ := ih
    have hsound := Acts.sound hacts h
    rcases hact.attempts_cases hsound with hsame | ⟨a, hcons, hstart, hnone, -⟩
    · exact ⟨fresh, hsame.trans heq, hfresh⟩
    · refine ⟨a :: fresh, by rw [hcons, heq, List.cons_append], fun b hb haddr => ?_⟩
      rcases List.mem_cons.mp hb with rfl | hb
      · subst haddr
        rw [hstart]
        exact (Acts.barred hacts h hbarred).over hnone
      · exact hfresh b hb haddr

def BacksOff (σ : DiscoveryActor) : Prop :=
  ∀ later a earlier, σ.attempts = later ++ a :: earlier → a.sent = false →
    σ.Barred a.addr (a.tickedAt + σ.failureDelay) ∧
      ∀ b ∈ later, b.addr = a.addr → a.tickedAt + σ.failureDelay ≤ b.startedAt

lemma Act.backsOff (hact : Act true σ σ') (h : σ.Sound) (hback : σ.BacksOff) : σ'.BacksOff := by
  intro later a earlier heq hsent
  have hdelay : σ'.failureDelay = σ.failureDelay := by rw [failureDelay, Acts.config_eq (.single hact), failureDelay]
  rw [hdelay]
  rcases hact.attempts_cases h with hsame | ⟨c, hcons, hstart, hnone, hrest⟩
  · obtain ⟨hbarred, hlater⟩ := hback later a earlier (hsame.symm.trans heq) hsent
    exact ⟨hact.barred h hbarred, hlater⟩
  · cases later with
    | nil =>
      cases hcons.symm.trans heq
      exact ⟨hrest hsent, fun _ hmem => absurd hmem List.not_mem_nil⟩
    | cons d later =>
      obtain ⟨rfl, htail⟩ := List.cons.inj (hcons.symm.trans heq)
      obtain ⟨hbarred, hlater⟩ := hback later a earlier htail hsent
      refine ⟨hact.barred h hbarred, fun b hb haddr => ?_⟩
      rcases List.mem_cons.mp hb with rfl | hb
      · rw [hstart]
        exact hbarred.over (haddr ▸ hnone)
      · exact hlater b hb haddr

lemma Acts.backsOff (hacts : Acts true σ σ') (h : σ.Sound) (hback : σ.BacksOff) : σ'.BacksOff := by
  induction hacts with
  | refl => exact hback
  | tail hacts hact ih => exact hact.backsOff (Acts.sound hacts h) ih

lemma Reachable.backsOff {options : DiscoveryOptions} (hσ : Reachable options σ) : σ.BacksOff := by
  induction hσ with
  | start netmode v4 v6 now =>
    intro later a earlier heq
    cases later <;> cases heq
  | step hσ hstep ih => exact Acts.backsOff (hstep.acts hσ.sound) hσ.sound ih

def QuietUntil (σ σ' : DiscoveryActor) (addr : SocketAddr) (u : Instant) : Prop :=
  ∀ σ'', Relation.ReflTransGen Step σ' σ'' →
    ∃ fresh, σ''.attempts = fresh ++ σ.attempts ∧ ∀ a ∈ fresh, a.addr = addr → u ≤ a.startedAt

lemma acts_of_steps (hsteps : Relation.ReflTransGen Step σ σ') (h : σ.Sound) : Acts true σ σ' := by
  induction hsteps with
  | refl => exact .refl
  | tail _ hstep ih => exact ih.trans (hstep.acts (Acts.sound ih h))

lemma RestedIn.quietUntil {start : DiscoveryActor} 
    (h : RestedIn start now addr u σ') (hattempts : start.attempts = σ.attempts) : QuietUntil σ σ' addr u := by
  obtain ⟨ρ, hρ, hsame, hbarred, hran⟩ := h
  intro σ'' hsteps
  obtain ⟨fresh, heq, hfresh⟩ := Acts.quiet (hran.acts.trans (acts_of_steps hsteps hran.sound)) hρ.sound
    hbarred
  exact ⟨fresh, by rw [heq, hsame, hattempts], hfresh⟩

/-- The intervals are kept. A node whose response is processed at `now` is not asked before the rest that the
response calls for is over; one whose request a tick at `now` finds timed out, not before the backoff is over;
and one to which a send failed, not before the backoff is over, counted from the start of the tick. -/
theorem sampling_intervals_kept (options : DiscoveryOptions) (σ σ' : DiscoveryActor) (future : ℕ → Look)
    (event : Event) (now : Instant) (hσ : Reachable options σ) (hnow : now = σ.clock + (future 0).elapsed)
    (hhandle : σ.handle future event = .ok σ') :
    (∀ addr tid response answers, event = .response addr tid response answers → σ.matched addr tid now = true →
        QuietUntil σ σ' addr (now + restAfter (.fromOptions options) response)) ∧
      (∀ iteration seeds addr sample, event = .tick iteration seeds →
        σ.pending.get addr = some sample → sample.deadline ≤ now →
          QuietUntil σ σ' addr (now + secs (DiscoveryConfig.fromOptions options).sampleFailureBackoffSecs)) ∧
      ∀ later a earlier, σ'.attempts = later ++ a :: earlier → a.sent = false → ∀ b ∈ later, b.addr = a.addr →
          a.tickedAt + secs (DiscoveryConfig.fromOptions options).sampleFailureBackoffSecs ≤ b.startedAt := by
  have hsound := hσ.sound
  have hσ' : Reachable options σ' := hσ.step ⟨future, event, hhandle⟩
  have hstart := hsound.ran_look future
  subst hnow
  refine ⟨?_, ?_, fun later a earlier heq hsent b hb haddr => ?_⟩
  · rintro addr tid response answers rfl hmatched
    rw [← hσ.config_eq]
    have hanswered := (handleResponse_spec hstart rfl addr tid response answers).of_ok hhandle
    exact (hanswered.1 hmatched).restedIn.quietUntil rfl
  · rintro iteration seeds addr sample rfl hpending hdeadline
    rw [← hσ.config_eq]
    obtain ⟨ρ, hρ, hattempts, hbarred, hrest⟩ :=
      ((onTick_spec hstart iteration seeds).of_ok hhandle).2 addr sample hpending hdeadline
    have hbarred := hbarred.mono (Nat.add_le_add_left (secs_le_failureDelay σ) _)
    exact RestedIn.quietUntil ⟨ρ, hρ, hattempts, hbarred, hrest⟩ rfl
  · rw [← hσ'.config_eq]
    exact (Nat.add_le_add_left σ'.secs_le_failureDelay _).trans
      ((hσ'.backsOff later a earlier heq hsent).2 b hb haddr)

def restfulResponse : DhtResponse where
  id := some (List.replicate 20 7)
  nodes := none
  nodes6 := none
  values := none
  samples := some []
  interval := some 120
  num := some 0

def calmSecond : ℕ → Look
  | 0 => ⟨secs 1, true⟩
  | _ => ⟨0, true⟩

theorem sampling_intervals_kept_sample :
    ∃ σ σ', Reachable sampleOptions σ ∧
      σ.handle calmSecond (.response (sampleNode 1).addr (taggedTid sampleTidTag 1) (some restfulResponse)
        fun _ => ⟨true, true⟩) = .ok σ' ∧
      QuietUntil σ σ' (sampleNode 1).addr (secs 122) := by
  have htest : ((new sampleOptions .ipv4Only true false 0).runEvents
      [(calmSecond, .tick .ascending [sampleNode 1])]).isOkAnd (fun σ =>
        decide (σ.clock = secs 1) && σ.matched (sampleNode 1).addr (taggedTid sampleTidTag 1) (secs 2)) =
          true := by
    decide +kernel
  obtain ⟨σ, hrun, htest⟩ := Except.isOkAnd_eq_true.mp htest
  obtain ⟨hclock, hmatched⟩ := Bool.and_eq_true_iff.mp htest
  have hσ : Reachable sampleOptions σ := (Reachable.start _ _ _ _).run hrun
  have hnow : secs 2 = σ.clock + (calmSecond 0).elapsed := by rw [of_decide_eq_true hclock]; rfl
  obtain ⟨σ', hhandle, -⟩ := (handle_spec hσ.sound calmSecond (.response (sampleNode 1).addr
    (taggedTid sampleTidTag 1) (some restfulResponse) fun _ => ⟨true, true⟩)).exists
  have hquiet := (sampling_intervals_kept sampleOptions σ σ' calmSecond _ (secs 2) hσ hnow hhandle).1 _ _ _ _
    rfl hmatched
  exact ⟨σ, σ', hσ, hhandle, hquiet⟩

def slowSends : ℕ → Look
  | 0 => ⟨secs 1, true⟩
  | 1 => ⟨100000000, true⟩
  | 2 => ⟨100000000, false⟩
  | _ => ⟨0, true⟩

def nextTick : ℕ → Look
  | 0 => ⟨800000000, true⟩
  | _ => ⟨0, true⟩

def hastens (backoff : Duration) : List Attempt → Bool
  | b :: a :: _ => decide (b.addr = a.addr) && !a.sent && decide (b.startedAt < a.startedAt + backoff)
  | _ => false

/-- The rest after a failed send is counted from the start of the tick. -/
theorem failed_send_asked_early :
    ∃ σ a b earlier, Reachable sampleOptions σ ∧ σ.attempts = b :: a :: earlier ∧ b.addr = a.addr ∧
      a.sent = false ∧
      b.startedAt <
        a.startedAt + secs (DiscoveryConfig.fromOptions sampleOptions).sampleFailureBackoffSecs := by
  have htest : ((new sampleOptions .ipv4Only true false 0).runEvents
      [(slowSends, .tick .ascending [sampleNode 1, sampleNode 2]), (nextTick, .tick .ascending [])]).isOkAnd
        (fun σ => hastens (secs (DiscoveryConfig.fromOptions sampleOptions).sampleFailureBackoffSecs)
          σ.attempts) = true := by
    decide +kernel
  obtain ⟨σ, hrun, htest⟩ := Except.isOkAnd_eq_true.mp htest
  have hσ : Reachable sampleOptions σ := (Reachable.start _ _ _ _).run hrun
  match hattempts : σ.attempts with
  | b :: a :: earlier =>
    rw [hattempts] at htest
    simp only [hastens, Bool.and_eq_true, decide_eq_true_eq, Bool.not_eq_true'] at htest
    exact ⟨σ, a, b, earlier, hσ, hattempts, htest.1.1, htest.1.2, htest.2⟩
  | [] | [_] =>
    rw [hattempts] at htest
    cases htest

end DhtCrawler.Discovery.DiscoveryActor
