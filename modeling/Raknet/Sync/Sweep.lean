import Raknet.Sync.Registry
import Raknet.Sync.Requests

/-!
# What the closer gets done

`_finish_close` closes the mailboxes of the snapshot's Connections, resolves its connects and its
pings, and puts the sentinel. The pump has left its loop by then, so only the closer writes what
the snapshot names.

**Theorem (`ActEffect.swept`, `CallEffect.swept`).** Everything in the snapshot is either still in
the closer's list or taken care of, after every step.
-/

namespace Raknet

open Interleaving

variable {text : SystemAddress → String} {s s' : State} {snap : Snapshot}

/-- Where the closer stands with the snapshot it took. -/
structure Swept (snap : Snapshot) (s : State) : Prop where
  connections : ∀ k ∈ snap.connections,
    k ∈ s.teardown.connections ∨ s.teardown.inHand = some k ∨ s.registry.reason k ≠ none
  connects : ∀ i ∈ snap.pendingConnects, i ∈ s.teardown.connects ∨
    (s.peer.pendingConnect i).reason = some .connectionAttemptFailed ∧
      (s.teardown.connectInHand = some i ∨ (s.peer.pendingConnect i).event = true)
  pings : ∀ i ∈ snap.pendingPings, i ∈ s.teardown.pings ∨ (s.peer.pendingPing i).event = true

theorem swept_of_begun (hconnections : s.teardown.connections = snap.connections)
    (hconnects : s.teardown.connects = snap.pendingConnects)
    (hpings : s.teardown.pings = snap.pendingPings) : Swept snap s :=
  ⟨fun _ h => Or.inl (hconnections ▸ h), fun _ h => Or.inl (hconnects ▸ h),
    fun _ h => Or.inl (hpings ▸ h)⟩

/-- Once the pump has left its loop, it can only exit, and the closer, the readers and the clock
go on. -/
theorem ActEffect.of_stopped {e : State.Act} (h : ActEffect text s e s')
    (hstop : s.pump.stopped = true) :
    e = .pump ∧ s' = s.goto .exited ∨ e = .closer ∨ (∃ c, e = .recv c) ∨ ∃ d, e = .tick d := by
  cases h
  case failed h _ => exact Or.inl ⟨rfl, rfl⟩
  case drop h =>
    rw [h.stopped] at hstop
    cases hstop
  case recvItem c _ _ _ _ | recvRaises c _ _ _ => exact Or.inr (Or.inr (Or.inl ⟨c, rfl⟩))
  case tick d => exact Or.inr (Or.inr (Or.inr ⟨d, rfl⟩))
  case join | shutdown | sweptConnections | sweepConnection | closeMailbox | sweptConnects |
      sweepConnect | setConnect | sweptPings | sweepPing | putSentinel =>
    exact Or.inr (Or.inl rfl)
  all_goals
    next h =>
      first
        | rw [h] at hstop
          cases hstop
        | simp_all [PumpPc.stopped]

theorem Swept.keep (hi : Swept snap s) (hg : s.registry.Grows s'.registry)
    (hcreated : ∀ k ∈ snap.connections, k < s.peer.created)
    (hteardown : s'.teardown = s.teardown)
    (hconnect : ∀ i ∈ snap.pendingConnects, s'.peer.pendingConnect i = s.peer.pendingConnect i)
    (hping : ∀ i ∈ snap.pendingPings, s'.peer.pendingPing i = s.peer.pendingPing i) :
    Swept snap s' := by
  refine ⟨fun k hk => ?_, fun i hmem => ?_, fun i hmem => ?_⟩
  · rw [hteardown]
    refine (hi.connections k hk).imp_right (Or.imp_right fun hr => ?_)
    obtain ⟨e, he⟩ := Option.ne_none_iff_exists'.mp hr
    rw [hg.reason k e (hcreated k hk) he]
    simp
  · rw [hteardown, hconnect i hmem]
    exact hi.connects i hmem
  · rw [hteardown, hping i hmem]
    exact hi.pings i hmem

/-- Calls leave the snapshot alone: a call that constructs a pending object has not registered it
yet. -/
theorem CallEffect.swept {i : CallId} {t : Call} (h : CallEffect text i s t s')
    (hclosed : s.peer.closed = true) (hg : s.registry.Grows s'.registry)
    (hcreated : ∀ k ∈ snap.connections, k < s.peer.created)
    (hconnect : ∀ args, t = .connect args (.start .resolve) → i ∉ s.connects.entered)
    (hping : ∀ args, t = .ping args (.start .resolve) → i ∉ s.pings.entered)
    (hconnects : ∀ j ∈ snap.pendingConnects, j ∈ s.connects.entered)
    (hpings : ∀ j ∈ snap.pendingPings, j ∈ s.pings.entered) (hi : Swept snap s) :
    Swept snap s' := by
  cases h with
  | newConnect args h =>
    have hnew := hconnect args h
    refine hi.keep hg hcreated rfl (fun j hj => ?_) fun _ _ => rfl
    have hne : j ≠ i := fun hji => hnew (hji ▸ hconnects j hj)
    simp [hne]
  | newPing args h =>
    have hnew := hping args h
    refine hi.keep hg hcreated rfl (fun _ _ => rfl) (fun j hj => ?_)
    have hne : j ≠ i := fun hji => hnew (hji ▸ hpings j hj)
    simp [hne]
  | registerConnect args a h hopen | registerPing args a h hopen | beginClose hopen =>
    rw [hclosed] at hopen
    cases hopen
  | _ => exact hi.keep hg hcreated rfl (fun _ _ => rfl) fun _ _ => rfl

theorem closer_swept (h : ActEffect text s .closer s') (hg : s.registry.Grows s'.registry)
    (hcreated : ∀ k ∈ snap.connections, k < s.peer.created) (hi : Swept snap s) :
    Swept snap s' := by
  have hreason : ∀ k ∈ snap.connections, s.registry.reason k ≠ none →
      s'.registry.reason k ≠ none := by
    intro k hk hr
    obtain ⟨e, he⟩ := Option.ne_none_iff_exists'.mp hr
    rw [hg.reason k e (hcreated k hk) he]
    simp
  obtain ⟨hconnections, hconnects, hpings⟩ := hi
  cases h with
  | join rest h _ | shutdown exc rest h =>
    simp only [h] at hconnections hconnects hpings
    exact ⟨hconnections, hconnects, hpings⟩
  | sweptConnections exc rest h hnil =>
    simp only [h, Teardown.connections, hnil] at hconnections
    simp only [h] at hconnects hpings
    refine ⟨fun k hk => Or.inr (Or.inr ?_), hconnects, hpings⟩
    rcases hconnections k hk with hin | hin | hr
    · cases hin
    · cases hin
    · exact hr
  | sweepConnection exc rest k cs h hcons =>
    simp only [h, Teardown.connections, hcons, List.mem_cons] at hconnections
    simp only [h] at hconnects hpings
    refine ⟨fun l hl => ?_, hconnects, hpings⟩
    rcases hconnections l hl with (rfl | hin) | hin | hr
    · exact Or.inr (Or.inl rfl)
    · exact Or.inl hin
    · cases hin
    · exact Or.inr (Or.inr (hreason l hl hr))
  | closeMailbox exc k rest h =>
    simp only [h] at hconnections hconnects hpings
    refine ⟨fun l hl => ?_, hconnects, hpings⟩
    rcases hconnections l hl with hin | hin | hr
    · exact Or.inl hin
    · cases hin
      exact Or.inr (Or.inr (by simp [Registry.reason]))
    · exact Or.inr (Or.inr (hreason l hl hr))
  | sweptConnects rest h hnil =>
    simp only [h, Teardown.connects, hnil] at hconnects
    simp only [h] at hconnections hpings
    refine ⟨hconnections, fun i hmem => ?_, hpings⟩
    rcases hconnects i hmem with hin | ⟨hr, hin | hevent⟩
    · cases hin
    · cases hin
    · exact Or.inr ⟨hr, Or.inr hevent⟩
  | sweepConnect rest i is h hcons =>
    simp only [h, Teardown.connects, hcons, List.mem_cons] at hconnects
    simp only [h] at hconnections hpings
    refine ⟨hconnections, fun j hj => ?_, hpings⟩
    by_cases hji : j = i
    · subst hji
      exact Or.inr ⟨by simp, Or.inl rfl⟩
    · rcases hconnects j hj with (hin | hin) | ⟨hr, hin | hevent⟩
      · exact absurd hin hji
      · exact Or.inl hin
      · cases hin
      · exact Or.inr (by simpa [hji] using ⟨hr, Or.inr hevent⟩)
  | setConnect i rest h =>
    simp only [h] at hconnections hconnects hpings
    refine ⟨hconnections, fun j hj => ?_, hpings⟩
    by_cases hji : j = i
    · subst hji
      rcases hconnects j hj with hin | ⟨hr, -⟩
      · exact Or.inl hin
      · exact Or.inr (by simpa using hr)
    · rcases hconnects j hj with hin | ⟨hr, hin | hevent⟩
      · exact Or.inl hin
      · exact absurd (Option.some.inj hin).symm hji
      · exact Or.inr (by simpa [hji] using ⟨hr, Or.inr hevent⟩)
  | sweptPings rest h hnil =>
    simp only [h, Teardown.pings, hnil] at hpings
    simp only [h] at hconnections hconnects
    refine ⟨hconnections, hconnects, fun i hmem => Or.inr ?_⟩
    exact (hpings i hmem).resolve_left List.not_mem_nil
  | sweepPing rest i is h hcons =>
    simp only [h, Teardown.pings, hcons, List.mem_cons] at hpings
    simp only [h] at hconnections hconnects
    refine ⟨hconnections, hconnects, fun j hj => ?_⟩
    by_cases hji : j = i
    · subst hji
      exact Or.inr (by simp)
    · rcases hpings j hj with (hin | hin) | hevent
      · exact absurd hin hji
      · exact Or.inl hin
      · exact Or.inr (by simpa [hji] using hevent)
  | putSentinel h =>
    simp only [h] at hconnections hconnects hpings
    exact ⟨hconnections, hconnects, hpings⟩

/-- Once the pump has stopped, what the snapshot names is in the hands of the closer. -/
theorem ActEffect.swept {e : State.Act} (h : ActEffect text s e s') (hstop : s.pump.stopped = true)
    (hg : s.registry.Grows s'.registry) (hcreated : ∀ k ∈ snap.connections, k < s.peer.created)
    (hi : Swept snap s) : Swept snap s' := by
  rcases h.of_stopped hstop with ⟨-, rfl⟩ | rfl | ⟨c, rfl⟩ | ⟨d, rfl⟩
  · exact hi.keep hg hcreated rfl (fun _ _ => rfl) fun _ _ => rfl
  · exact closer_swept h hg hcreated hi
  · cases h <;> exact hi.keep hg hcreated rfl (fun _ _ => rfl) fun _ _ => rfl
  · cases h
    exact hi.keep hg hcreated rfl (fun _ _ => rfl) fun _ _ => rfl

/-- When the closer is done, everybody in the snapshot has been served. -/
theorem Swept.done (hi : Swept snap s) (hdone : s.teardown = .done) :
    (∀ k ∈ snap.connections, s.registry.reason k ≠ none) ∧
    (∀ i ∈ snap.pendingConnects,
      (s.peer.pendingConnect i).reason = some .connectionAttemptFailed ∧
        (s.peer.pendingConnect i).event = true) ∧
    ∀ i ∈ snap.pendingPings, (s.peer.pendingPing i).event = true := by
  obtain ⟨hconnections, hconnects, hpings⟩ := hi
  simp only [hdone, Teardown.connections, Teardown.inHand, Teardown.connects,
    Teardown.connectInHand, Teardown.pings, List.not_mem_nil, reduceCtorEq, false_or] at *
  exact ⟨hconnections, hconnects, hpings⟩

end Raknet
