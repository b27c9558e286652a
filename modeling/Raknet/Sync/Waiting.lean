import Raknet.Sync.Requests

/-!
# Who wakes a waiting connect

A call that waits for its pending connect relies on others to set the event. It can do so as long
as its pending object is *tracked*: resolved, in the table under its own key, held by the pump, or
in the closer's snapshot. The table is keyed by address alone, so another call to the same address
can replace or pop the entry; then nobody sets the event.

**Theorem (`connect_committed`).** In a run in which no call touches another's entry, every
waiting connect is tracked.

**Theorem (`connect_stranded`).** Two overlapping calls to one address break this.
-/

namespace Raknet

open Interleaving Handoff

/-- The address under which the call has registered a pending connect that it may still wait for. -/
def Call.registered : Call → Option SystemAddress
  | connect _ (.start (.rawConnect a)) | connect _ (.wait a) | connect _ (.abandon a .pop)
  | connect _ (.waitAgain a) => some a
  | _ => none

/-- `_start_connect` has returned, and `connect` has not ended or abandoned the attempt. -/
def Call.waiting : Call → Option SystemAddress
  | connect _ (.wait a) | connect _ (.abandon a .pop) | connect _ (.waitAgain a) => some a
  | _ => none

variable {text : SystemAddress → String} {s s' : State}

/-- No call touches the entry of another: a registration finds its key free, and who pops a key
finds nothing or its own entry there. -/
def Respectful (text : SystemAddress → String) (c : Sync) : SyncAction → Prop
  | .thread i _ =>
    match c.thread i with
    | .connect _ (.start (.register a)) => c.shared.peer.pendingConnects.get? (text a) = none
    | .connect _ (.start (.popFailed a _)) | .connect _ (.abandon a .pop) =>
      c.shared.peer.pendingConnects.get? (text a) = none ∨
        c.shared.peer.pendingConnects.get? (text a) = some i
    | _ => True
  | .shared _ => True

/-- What `Respectful` asks of a call can be decided. -/
def Call.decideRespect {A B : SystemAddress → Prop} [DecidablePred A] [DecidablePred B] :
    (t : Call) → Decidable (match t with
      | .connect _ (.start (.register a)) => A a
      | .connect _ (.start (.popFailed a _)) | .connect _ (.abandon a .pop) => B a
      | _ => True)
  | .connect _ (.start (.register a)) => inferInstanceAs (Decidable (A a))
  | .connect _ (.start (.popFailed a _)) => inferInstanceAs (Decidable (B a))
  | .connect _ (.abandon a .pop) => inferInstanceAs (Decidable (B a))
  | .connect _ (.start .checkOpen) | .connect _ (.start .checkAttempts)
  | .connect _ (.start .resolve) | .connect _ (.start (.rawConnect _))
  | .connect _ (.abandon _ .cancel) | .connect _ (.wait _) | .connect _ (.waitAgain _)
  | .connect _ (.reap _ _) | .connect _ .finish | .connect _ (.closePeer _ _)
  | .connect _ (.own _) | .connect _ (.returned _) | .connect _ (.raised _)
  | .idle | .ping _ _ | .accept _ | .close _ _ _ | .closed _ | .closePeer _ | .closedPeer =>
    .isTrue trivial

instance (c : Sync) : (a : SyncAction) → Decidable (Respectful text c a)
  | .shared _ => .isTrue trivial
  | .thread i _ => (c.thread i).decideRespect
    (A := fun a => c.shared.peer.pendingConnects.get? (text a) = none)
    (B := fun a => c.shared.peer.pendingConnects.get? (text a) = none ∨
      c.shared.peer.pendingConnects.get? (text a) = some i)

instance (b : Board String CallId ConnectOutcome) (k : String) (i : CallId) :
    Decidable (b.Tracked k i) :=
  inferInstanceAs (Decidable (_ ∨ _))

theorem waiting_registered {t : Call} {a : SystemAddress} (h : t.waiting = some a) :
    t.registered = some a := by
  unfold Call.waiting at h
  split at h <;> first | exact h | cases h

@[simp] theorem registered_leave (args : ConnectArgs) (e : Error) :
    (Call.connect args (args.leave e)).registered = none := by
  unfold ConnectArgs.leave
  split_ifs <;> rfl

@[simp] theorem registered_give (args : ConnectArgs) (c : ConnId) :
    (Call.connect args (args.give c)).registered = none := by
  unfold ConnectArgs.give
  split_ifs <;> rfl

theorem taken_beginClose (t : Snapshot → Teardown) {k : String} {i : CallId}
    (hget : s.peer.pendingConnects.get? k = some i) :
    (s.beginClose t).connects.taken ≠ s.connects.taken := by
  have hmem : i ∈ s.peer.pendingConnects.values := Dict.mem_values.mpr ⟨k, hget⟩
  intro htaken
  simp only [State.connects, State.beginClose_log, List.flatMap_append, List.flatMap_cons,
    Event.connectsTaken, List.flatMap_nil, List.append_nil, List.append_right_eq_self,
    Peer.snapshot] at htaken
  simp [htaken] at hmem

theorem ActEffect.tracked {e : State.Act} (h : ActEffect text s e s') (hi : PendingInv s)
    (hsd : ShutdownInv s) {k : String} {i : CallId} (ht : s.connects.Tracked k i) :
    s'.connects.Tracked k i := by
  rcases (h.connects hi.connects hsd).tracked hi.connects.toPlaced ht with ht' |
      ⟨hget, htaken, hout⟩
  · exact ht'
  · refine absurd ?_ hout
    cases h
    case succeededPop | failedPop => simp [State.connects, Event.connectsTaken] at htaken
    case fail d _ _ =>
      exact absurd htaken (taken_beginClose (.shutdown (some (State.crashed d))) hget)
    all_goals exact hget

theorem CallEffect.tracked {i : CallId} {t : Call} (h : CallEffect text i s t s')
    (hi : PendingInv s) (hun : t.Unentered s i) (hsd : ShutdownInv s) {k : String} {j : CallId}
    (ht : s.connects.Tracked k j)
    (henter : ∀ args a, t = .connect args (.start (.register a)) → text a = k →
      s.peer.pendingConnects.get? k ≠ some j)
    (hpop : ∀ args a, ((∃ r, t = .connect args (.start (.popFailed a r))) ∨
      t = .connect args (.abandon a .pop)) → text a = k →
      s.peer.pendingConnects.get? k ≠ some j) :
    s'.connects.Tracked k j := by
  rcases (h.pending hi hun hsd).connects.tracked hi.connects.toPlaced ht with
    ht' | ⟨hget, htaken, hout⟩
  · exact ht'
  · refine absurd ?_ hout
    cases h with
    | registerConnect args a h hopen =>
      have hne : k ≠ text a := fun hk => henter args a h hk.symm hget
      simpa [State.connects, hne] using hget
    | popFailed args a r h =>
      have hne : k ≠ text a := fun hk => hpop args a (Or.inl ⟨r, h⟩) hk.symm hget
      simpa [State.connects, hne] using hget
    | popAbandoned args a l h hl =>
      have hne : k ≠ text a := fun hk => hpop args a (Or.inr h) hk.symm hget
      simpa [State.connects, hne] using hget
    | beginClose hopen => exact absurd htaken (taken_beginClose _ hget)
    | _ => exact hget

theorem ConnectEffect.tracked {i : CallId} {args : ConnectArgs} {pc pc' : ConnectPc}
    (h : ConnectEffect text i args s pc s' pc')
    (ht : ∀ a, (Call.connect args pc).registered = some a → s.connects.Tracked (text a) i)
    {a : SystemAddress} (hreg : (Call.connect args pc').registered = some a) :
    s'.connects.Tracked (text a) i := by
  cases h with
  | refused | fewAttempts | unresolved | closedMeanwhile | rawRaised | popFailed | cancel |
    wokenLate |
      reaped | failed =>
    simp at hreg
  | finish => simp at hreg
  | register b hopen =>
    cases hreg
    exact Or.inr (Or.inl (by simp [State.connects]))
  | started b | timeout b | late b hget =>
    cases hreg
    exact ht a rfl
  | _ => cases hreg

theorem reach_tracked {q : Option Nat} {t₀ : Int} {c : Sync}
    (h : Reach (sync text) (Respectful text) (Sync.init q t₀) c) {i : CallId} {a : SystemAddress}
    (hreg : (c.thread i).registered = some a) : c.shared.connects.Tracked (text a) i := by
  refine (h.outline (G := fun _ => True)
    (L := fun i s t => ∀ a, t.registered = some a → s.connects.Tracked (text a) i)
    trivial (fun _ a ha => by cases ha) ?_ ?_).2 i a hreg
  · intro c e s hr _ hs _
    exact ⟨trivial, fun i t ht a ha =>
      (act_effect hs).tracked (reach_pendingInv hr).1 (reach_shutdownInv hr) (ht a ha)⟩
  · intro c i x s t hr hok hs _ ht
    obtain ⟨hpend, hun⟩ := reach_pendingInv hr
    have hmove := callStep_move hs
    refine ⟨trivial, fun a ha => ?_, fun j hj u hu a ha => ?_⟩
    · generalize hcall : c.thread i = call at hmove ht
      cases hmove with
      | connect args pc pc' s' h => exact h.tracked ht ha
      | begin start t h =>
        cases start <;> simp only [startCall] at h
        case close k notify =>
          split_ifs at h
          cases h
          cases ha
        all_goals
          cases h
          cases ha
      | _ => cases ha
    · refine hmove.effect.tracked hpend (hun i) (reach_shutdownInv hr) (hu a ha) ?_ ?_
      · rintro args b hcall hb
        simp only [Respectful, hcall, hb] at hok
        simp [hok]
      · rintro args b (⟨r, hcall⟩ | hcall) hb <;> simp only [Respectful, hcall, hb] at hok
        all_goals rcases hok with hok | hok <;> simp [hok, Ne.symm hj]

/-- **No connect waiter is stranded**, as long as no call touches the entry of another: the pending
connect of every waiting call is resolved, in the table under its own key, held by the pump, or
in the snapshot of a closer that has not finished. -/
theorem connect_committed {q : Option Nat} {t₀ : Int} {c : Sync}
    (h : Reach (sync text) (Respectful text) (Sync.init q t₀) c) {i : CallId} {a : SystemAddress}
    (hw : (c.thread i).waiting = some a) : c.shared.connects.Tracked (text a) i :=
  reach_tracked h (waiting_registered hw)

/-- Two calls connect. One times out and cancels. The other times out while the pump builds its
Connection: it waits again, and the pump still holds its pending connect. -/
theorem connect_committed_late :
    ∃ c, Reach (sync SystemAddress.text) (Respectful SystemAddress.text) (Sync.init none 0) c ∧
      c.thread 0 =
        .connect ⟨"a", 1, 12, false⟩ (.raised (.timeout "connect to a:1 timed out")) ∧
      c.thread 1 = .connect ⟨"b", 1, 12, false⟩ (.waitAgain ⟨"10.0.0.2", 1⟩) ∧
      c.shared.pump = .succeededRegister 1 7 0 ∧
      c.shared.connects.Tracked (SystemAddress.text ⟨"10.0.0.2", 1⟩) 1 := by
  have h : Reach (sync SystemAddress.text) (Respectful SystemAddress.text) (Sync.init none 0) _ :=
    .of_exec (show (sync SystemAddress.text).exec (Respectful SystemAddress.text)
      (connects 0 ⟨"a", 1, 12, false⟩ "10.0.0.1" .connectionAttemptStarted ++
        connects 1 ⟨"b", 1, 12, false⟩ "10.0.0.2" .connectionAttemptStarted ++
        .thread 0 (.inr .timeout) :: steps 0 2 ++
        routes ⟨⟨"10.0.0.2", 1⟩, 7, [16]⟩ 3 ++ .thread 1 (.inr .timeout) :: steps 1 1)
      (Sync.init none 0) = some _ from rfl)
  exact ⟨_, h, by decide, rfl, rfl, connect_committed h rfl⟩

/-- Two calls connect to one address. RakNet refuses the second as already in progress, its error
path pops the entry of the first, and when the first times out it waits for an event that
nobody will set. -/
theorem connect_stranded :
    ∃ c, Reach (sync SystemAddress.text) anyStep (Sync.init none 0) c ∧
      c.thread 0 = .connect ⟨"a", 1, 12, false⟩ (.waitAgain ⟨"10.0.0.1", 1⟩) ∧
      ¬ c.shared.connects.Tracked (SystemAddress.text ⟨"10.0.0.1", 1⟩) 0 := by
  have h : Reach (sync SystemAddress.text) anyStep (Sync.init none 0) _ :=
    .of_exec (show (sync SystemAddress.text).exec anyStep
      (connects 0 ⟨"a", 1, 12, false⟩ "10.0.0.1" .connectionAttemptStarted ++
        connects 1 ⟨"a", 1, 12, false⟩ "10.0.0.1" .connectionAttemptAlreadyInProgress ++
        steps 1 1 ++ .thread 0 (.inr .timeout) :: steps 0 1) (Sync.init none 0) = some _ from rfl)
  exact ⟨_, h, rfl, by decide⟩

end Raknet
