import DhtCrawler.DiscoveryBookkeeping
import DhtCrawler.TidNumbering

/-! The requests of the discovery actor and the responses to them. -/

namespace DhtCrawler.Discovery.DiscoveryActor

open FiniteMap

variable {σ σ' : DiscoveryActor} {options : DiscoveryOptions}

/-! ### Queries -/

structure Issuing (σ : DiscoveryActor) : Prop where
  nextTid : σ.nextTid = σ.attempts.length + 1
  numbered : Numbered sampleTidTag (σ.attempts.map Attempt.tid)
  issued : ∀ addr sample, σ.pending.get addr = some sample →
    ∃ a ∈ σ.attempts, a.sent = true ∧ a.addr = addr ∧ a.tid = sample.tid

lemma Issuing.attempted (h : σ.Issuing) (hbound : σ.attempts.length + 1 ≤ 2 ^ 56) (addr : SocketAddr)
    (now clock : Instant) (future : ℕ → Look) (sent : Bool) :
    (σ.attempted addr now clock future sent).Issuing := by
  unfold DiscoveryActor.attempted
  refine ⟨?_, ⟨?_, h.numbered⟩, fun addr sample hget => ?_⟩
  · rw [succ_counter (by have := h.nextTid; omega), h.nextTid, List.length_cons]
  · rw [List.length_map, h.nextTid]
  · obtain ⟨a, ha, hsent⟩ := h.issued addr sample hget
    exact ⟨a, List.mem_cons_of_mem _ ha, hsent⟩

lemma Act.issuing (hact : Act true σ σ') (ih : σ.attempts.length ≤ 2 ^ 56 → σ.Issuing)
    (hbound : σ'.attempts.length ≤ 2 ^ 56) : σ'.Issuing := by
  cases hact with
  | sent key now clock future deadline =>
    have hbound : σ.attempts.length + 1 ≤ 2 ^ 56 := hbound
    have h := (ih (Nat.le_of_succ_le hbound)).attempted hbound key.addr now clock future true
    exact ⟨h.nextTid, h.numbered, forall_insert ⟨_, List.mem_cons_self, rfl, rfl, rfl⟩
      fun addr sample _ => h.issued addr sample⟩
  | unsent key now clock future =>
    have hbound : σ.attempts.length + 1 ≤ 2 ^ 56 := hbound
    exact { (ih (Nat.le_of_succ_le hbound)).attempted hbound key.addr now clock future false with }
  | settle =>
    have h := ih hbound
    exact ⟨h.nextTid, h.numbered, fun addr sample hget => h.issued addr sample (get_of_get_erase hget).2⟩
  | _ => exact { ih hbound with }

lemma Reachable.induct {P : DiscoveryActor → Prop} (hσ : Reachable options σ)
    (hstart : ∀ netmode v4 v6 now, P (new options netmode v4 v6 now))
    (hact : ∀ {τ τ' : DiscoveryActor}, Act true τ τ' → P τ → P τ') : P σ := by
  have hacts : ∀ {τ τ' : DiscoveryActor}, Acts true τ τ' → P τ → P τ' := by
    intro τ τ' hrun hτ
    induction hrun with
    | refl => exact hτ
    | tail _ hlast ih => exact hact hlast ih
  induction hσ with
  | start netmode v4 v6 now => exact hstart netmode v4 v6 now
  | step hσ hstep ih => exact hacts (hstep.acts hσ.sound) ih

lemma Reachable.issuing (hσ : Reachable options σ) (hbound : σ.attempts.length ≤ 2 ^ 56) : σ.Issuing :=
  hσ.induct (P := fun σ => σ.attempts.length ≤ 2 ^ 56 → σ.Issuing)
    (fun _ _ _ _ _ => ⟨rfl, trivial, fun _ _ h => (nomatch h)⟩)
    (fun hact ih hlen => hact.issuing ih hlen) hbound

/-! ### Responses -/

lemma handle_response_pending (h : σ.Sound) (future : ℕ → Look) (addr : SocketAddr) (tid : TransactionId)
    (response : Option DhtResponse) (answers : ℕ → Answer)
    (hrun : σ.handle future (.response addr tid response answers) = .ok σ') :
    σ'.pending = (if σ.matched addr tid (σ.clock + (future 0).elapsed) then σ.pending.erase addr
      else σ.pending) := by
  have hanswered := (handleResponse_spec (h.ran_look future) rfl addr tid response answers).of_ok hrun
  split_ifs with hmatched
  · exact (hanswered.1 hmatched).requests.1
  · rw [hanswered.2 (Bool.not_eq_true _ ▸ hmatched)]
    rfl

/-! ### Hashes -/

lemma emitHash_emitted (σ : DiscoveryActor) (hash : NodeId) (node : NodeTuple) (source : HashSource)
    (now : Instant) (answer : Answer) :
    (σ.emitHash hash node source now answer).1.emitted = σ.emitted ∨
      (σ.emitHash hash node source now answer).1.emitted =
        ⟨hexEncode hash.toList, none, some node, source, now⟩ :: σ.emitted := by
  unfold emitHash
  cases σ.dedup.contains hash node.addr source now with
  | mk dedup known =>
    cases known with
    | true => exact .inl rfl
    | false =>
      dsimp only
      split_ifs <;> first | exact .inl rfl | exact .inr rfl

lemma Act.peerless (hact : Act true σ σ') (h : ∀ event ∈ σ.emitted, event.peerAddr = none) :
    ∀ event ∈ σ'.emitted, event.peerAddr = none := by
  cases hact with
  | emit hash node source answer s hemit =>
    intro event hevent
    rcases emitHash_emitted σ hash node source σ.clock answer with heq | heq <;> rw [hemit] at heq <;>
      rw [heq] at hevent
    · exact h event hevent
    · rcases List.mem_cons.mp hevent with rfl | hevent
      · rfl
      · exact h event hevent
  | _ => exact h

lemma Reachable.peerless (hσ : Reachable options σ) : ∀ event ∈ σ.emitted, event.peerAddr = none :=
  hσ.induct (P := fun σ => ∀ event ∈ σ.emitted, event.peerAddr = none)
    (fun _ _ _ _ _ h => (nomatch h)) fun hact => hact.peerless

end DhtCrawler.Discovery.DiscoveryActor
