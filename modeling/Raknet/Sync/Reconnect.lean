import Raknet.Sync.Registry

/-!
# A remote that comes back

A remote that reconnects keeps its guid, so its new Connection takes the place of the old one in
the registry. `Connection.close` pops and closes by guid, and its test of `_closed` is a step of its
own: a close of the old Connection that has passed the test works on the new one.

**Theorem (`close_frame`).** The closes of the old Connection leave the new one alone exactly if
none of them has passed its test, and not yet called `raw.close_connection`, when the new one is
registered.
-/

namespace Raknet

open Interleaving

/-- The Connection that the pump is about to register, and its guid. -/
def PumpPc.registers : PumpPc → Option (Guid × ConnId)
  | incomingRegister g c | succeededRegister _ g c => some (g, c)
  | _ => none

/-- Past the test of `_closed`, and not yet past `raw.close_connection`. -/
def ClosePc.committed : ClosePc → Bool
  | pop | mark | checkPeer | raw => true
  | _ => false

/-- Some `Connection.close` of `k` is committed. -/
def Sync.Committed (c : Sync) (k : ConnId) : Prop :=
  ∃ i pc, (c.thread i).closing = some (k, pc) ∧ pc.committed = true

/-- `disconnected` has removed `k`, the entry of `g`, and now the pump is about to register `k'`
under `g`. -/
structure Returning (text : SystemAddress → String) (c₀ : Sync) (g : Guid) (k k' : ConnId)
    (c : Sync) : Prop where
  removed : ∃ c₁ c₂ graceful, Reach (sync text) anyStep c₀ c₁ ∧
    c₁.shared.pump = .disconnectedPop g graceful ∧
    c₁.shared.peer.connections.get? g = some k ∧
    (sync text).step c₁ (.shared .pump) = some c₂ ∧ Reach (sync text) anyStep c₂ c
  registers : c.shared.pump.registers = some (g, k')

variable {text : SystemAddress → String} {s s' : State} {c c' : Sync} {g : Guid} {k k' : ConnId}

/-! ## The old Connection -/

/-- `disconnected` is about to set the flag of `k`, or it is set. -/
def State.Ending (s : State) (k : ConnId) : Prop :=
  (∃ graceful, s.pump = .disconnectedMark k graceful) ∨ (s.peer.connection k).closed = true

theorem ActEffect.ending {e : State.Act} (h : ActEffect text s e s')
    (hg : s.registry.Grows s'.registry) (hk : k < s.peer.created) (hi : s.Ending k) :
    s'.Ending k := by
  rcases hi with ⟨graceful, hp⟩ | hclosed
  · cases h
    case disconnectedMark c b h =>
      rw [hp] at h
      cases h
      exact Or.inr (by simp)
    case drop h =>
      rw [hp] at h
      exact h.elim
    all_goals first
      | exact Or.inl ⟨graceful, hp⟩
      | simp_all only [reduceCtorEq]
  · exact Or.inr (hg.closed k hk hclosed)

theorem CallEffect.ending {i : CallId} {t : Call} (h : CallEffect text i s t s')
    (hg : s.registry.Grows s'.registry) (hk : k < s.peer.created) (hi : s.Ending k) :
    s'.Ending k := by
  rcases hi with hp | hclosed
  · refine Or.inl ?_
    cases h <;> exact hp
  · exact Or.inr (hg.closed k hk hclosed)

theorem reach_ending {q : Option Nat} {t₀ : Int}
    (h : Reach (sync text) anyStep (Sync.init q t₀) c) (h' : Reach (sync text) anyStep c c')
    (hk : k < c.shared.peer.created) (hi : c.shared.Ending k) : c'.shared.Ending k := by
  induction h' with
  | start => exact hi
  | step hr _ hs ih =>
    have hreach := h.trans hr
    have hreg := reach_registryInv hreach
    have hg := (step_registry hreach hs).grows hreg.1.inv
    have hk' := Nat.lt_of_lt_of_le hk (reach_grows h hr).created
    rcases System.step_cases hs with ⟨e, s, rfl, he, rfl⟩ | ⟨i, x, s, t, rfl, hx, rfl⟩
    · exact (act_effect he).ending hg hk' ih
    · exact (callStep_effect hx).ending hg hk' ih

/-- When the new Connection is about to be registered, the old one is flagged, of the same guid, and
another one. -/
theorem Returning.old {q : Option Nat} {t₀ : Int} (h : Returning text (Sync.init q t₀) g k k' c) :
    Reach (sync text) anyStep (Sync.init q t₀) c ∧ k < c.shared.peer.created ∧
      (c.shared.peer.connection k).closed = true ∧ (c.shared.peer.connection k).rawGuid = g ∧
      (c.shared.peer.connection k').rawGuid = g := by
  obtain ⟨⟨c₁, c₂, graceful, hr, hpump, hget, hstep, hr'⟩, hreg⟩ := h
  have hr₂ : Reach (sync text) anyStep (Sync.init q t₀) c₂ := hr.trans (.single trivial hstep)
  have hinv := (reach_registryInv hr).1.inv
  have hk := (hinv.listed_published g k hget).1
  have hgrows := (step_registry hr hstep).grows hinv
  have hk₂ := Nat.lt_of_lt_of_le hk hgrows.created
  have hending : c₂.shared.Ending k := by
    obtain ⟨s, hs, rfl⟩ := Option.map_eq_some_iff.mp hstep
    have hs : State.pumpStep text c₁.shared = some s := hs
    simp only [State.pumpStep, hpump, hget, Option.some.injEq] at hs
    subst hs
    exact Or.inl ⟨graceful, rfl⟩
  have hr₃ := hr₂.trans hr'
  have hgrows' := hgrows.trans (reach_grows hr₂ hr')
  refine ⟨hr₃, Nat.lt_of_lt_of_le hk hgrows'.created, ?_, ?_, ?_⟩
  · rcases reach_ending hr₂ hr' hk₂ hending with ⟨b, hp⟩ | hclosed
    · rw [hp] at hreg
      cases hreg
    · exact hclosed
  · rw [← hinv.listed_guid g k hget]
    exact hgrows'.guid k hk
  · have hpump := (reach_registryInv hr₃).1.pump
    cases hp : c.shared.pump <;> rw [hp] at hreg hpump <;> cases hreg <;> exact hpump

/-! ## Its closes -/

theorem CallMove.closing_begins {i : CallId} {t t' : Call} {pc : ClosePc}
    (h : CallMove text i s t s' t') (ht : t.closing = none) (ht' : t'.closing = some (k, pc)) :
    pc = .check := by
  cases h with
  | begin start t h =>
    cases start <;> simp only [startCall] at h
    case close c notify =>
      split_ifs at h
      cases h
      cases ht'
      rfl
    all_goals
      cases h
      cases ht'
  | connect args q q' s' h =>
    cases h with
    | orphan a c hevent hconn =>
      cases ht'
      rfl
    | reap => cases ht
    | _ => first | cases ht' | simp at ht'
  | ping | accept => cases ht'
  | close => cases ht
  | _ => cases ht'

theorem CloseEffect.uncommitted {notify : Bool} {pc pc' : ClosePc}
    (h : CloseEffect k notify s pc s' (some pc')) (hclosed : (s.peer.connection k).closed = true)
    (hpc : pc.committed = false) : pc'.committed = false := by
  cases h with
  | check hopen =>
    rw [hclosed] at hopen
    cases hopen
  | pop | mark | skipRaw | checkPeer => cases hpc
  | _ => rfl

/-- Once no close of a flagged Connection is committed, none ever will be. -/
theorem reach_uncommitted {q : Option Nat} {t₀ : Int}
    (h : Reach (sync text) anyStep (Sync.init q t₀) c) (h' : Reach (sync text) anyStep c c')
    (hk : k < c.shared.peer.created) (hclosed : (c.shared.peer.connection k).closed = true)
    (hi : ¬ c.Committed k) : ¬ Sync.Committed c' k := by
  induction h' with
  | start => exact hi
  | @step d d' a hr _ hs ih =>
    have hflag := (reach_grows h hr).closed k hk hclosed
    rintro ⟨j, pc, hj, hpc⟩
    rcases System.step_cases hs with ⟨e, s, rfl, he, rfl⟩ | ⟨i, x, s, t, rfl, hx, rfl⟩
    · exact ih ⟨j, pc, hj, hpc⟩
    · rw [Config.move_thread] at hj
      split_ifs at hj with hji
      · cases hcl : (d.thread i).closing with
        | none =>
          have hpc' := (callStep_move hx).closing_begins hcl hj
          rw [hpc'] at hpc
          cases hpc
        | some r =>
          obtain ⟨l, pc₀⟩ := r
          obtain ⟨notify, pc', heff, ht'⟩ := (callStep_move hx).of_closing hcl
          have hj : t.closing = some (k, pc) := hj
          rw [ht'] at hj
          obtain ⟨pc'', rfl, hl⟩ := Option.map_eq_some_iff.mp hj
          cases hl
          have hpc₀ : pc₀.committed = false := by
            by_contra hne
            exact ih ⟨i, pc₀, hcl, by simpa using hne⟩
          rw [heff.uncommitted hflag hpc₀] at hpc
          cases hpc
      · exact ih ⟨j, pc, hj, hpc⟩

/-- What an uncommitted close does to an open Peer: nothing to the registry, and no call of
`raw.close_connection`. -/
theorem CloseEffect.frame {notify : Bool} {pc : ClosePc} {pc' : Option ClosePc}
    (h : CloseEffect k notify s pc s' pc') (hpc : pc.committed = false)
    (hopen : s'.peer.closed = false) :
    s'.registry.connections = s.registry.connections ∧ s'.log = s.log := by
  cases h with
  | pop | raw => cases hpc
  | begin => cases hopen
  | _ => exact ⟨rfl, rfl⟩

/-- A close can take the steps of `closeStep`. -/
theorem exists_closeStep (text : SystemAddress → String) {i : CallId} {pc q : ClosePc}
    {f : Bool → State}
    (hi : (c.thread i).closing = some (k, pc))
    (hstep : ∀ notify, closeStep k notify c.shared pc = some (f notify, .pc q)) :
    ∃ d notify, (sync text).step c (.thread i (.inr .go)) = some d ∧ d.shared = f notify ∧
      (d.thread i).closing = some (k, q) := by
  have hcall : ∃ t notify, callStep text i (.inr .go) c.shared (c.thread i) = some (f notify, t) ∧
      t.closing = some (k, q) := by
    cases ht : c.thread i with
    | connect args p =>
      cases p with
      | reap l pc =>
        rw [ht] at hi
        cases hi
        exact ⟨.connect args (.reap k q), true, by simp [callStep, connectStep, hstep], rfl⟩
      | _ => simp [ht, Call.closing] at hi
    | close l notify pc =>
      rw [ht] at hi
      cases hi
      exact ⟨.close k notify q, notify, by simp [callStep, hstep], rfl⟩
    | _ => simp [ht, Call.closing] at hi
  obtain ⟨t, notify, ht, hcl⟩ := hcall
  exact ⟨c.move i (f notify, t), notify, Option.map_eq_some_iff.mpr ⟨_, ht, rfl⟩, rfl,
    by simpa using hcl⟩

/-- A committed close of an open Peer that is past its pop comes to its `raw.close_connection`. -/
theorem exists_raw (text : SystemAddress → String) {i : CallId} {pc : ClosePc}
    (hi : (c.thread i).closing = some (k, pc))
    (hpc : pc.committed = true) (hpop : pc ≠ .pop) (hopen : c.shared.peer.closed = false) :
    ∃ d, Reach (sync text) anyStep c d ∧ (d.thread i).closing = some (k, .raw) ∧
      d.shared.peer.closed = false ∧
      (d.shared.peer.connection k).rawGuid = (c.shared.peer.connection k).rawGuid := by
  have hcheck : ∀ c : Sync, (c.thread i).closing = some (k, .checkPeer) →
      c.shared.peer.closed = false → ∃ d, Reach (sync text) anyStep c d ∧
        (Config.thread d i).closing = some (k, .raw) ∧ d.shared = c.shared := by
    intro c hi hopen
    obtain ⟨d, -, hd, hds, hdi⟩ := exists_closeStep text (f := fun _ => c.shared)
      (q := .raw) hi fun notify => by simp [closeStep, hopen]
    exact ⟨d, .single trivial hd, hdi, hds⟩
  cases pc with
  | pop => exact absurd rfl hpop
  | mark =>
    obtain ⟨d, -, hd, hds, hdi⟩ := exists_closeStep text
      (f := fun _ => c.shared.set (c.shared.peer.markClosed k)) (q := .checkPeer) hi fun _ => rfl
    obtain ⟨d', hr, hdi', hds'⟩ := hcheck d hdi (by rw [hds]; exact hopen)
    refine ⟨d', (Reach.single trivial hd).trans hr, hdi', ?_, ?_⟩
    · rw [hds', hds]
      exact hopen
    · rw [hds', hds]
      simp
  | checkPeer =>
    obtain ⟨d, hr, hdi, hds⟩ := hcheck c hi hopen
    exact ⟨d, hr, hdi, by rw [hds, hopen], by rw [hds]⟩
  | raw => exact ⟨c, .start, hi, hopen, rfl⟩
  | _ => cases hpc

/-! ## The new Connection -/

theorem registers_get {s' : State} (h : s.pump.registers = some (g, k'))
    (hs : s.pumpStep text = some s') :
    s'.peer.connections.get? g = some k' ∧ s'.peer.closed = s.peer.closed ∧
      s'.peer.connection = s.peer.connection := by
  cases hp : s.pump <;> rw [hp] at h <;> cases h <;>
    simp only [State.pumpStep, hp, Option.some.injEq] at hs <;> subst hs <;> simp

/-- **Closing one Connection, and another of the same guid.** `disconnected` has removed `k`, and
the pump registers `k'` under the same guid at an open Peer. No step of a `Connection.close` of `k`
that leaves the Peer open removes `k'` or calls `raw.close_connection` any more, exactly if none of
them is committed at the registration. As long as `k'` is registered, the messages and the end of
the guid go to it. -/
theorem close_frame {q : Option Nat} {t₀ : Int}
    (h : Returning text (Sync.init q t₀) g k k' c) (hopen : c.shared.peer.closed = false)
    (hstep : (sync text).step c (.shared .pump) = some c') :
    ((∀ d d' i pc x, Reach (sync text) anyStep c' d → (d.thread i).closing = some (k, pc) →
        (sync text).step d (.thread i x) = some d' → d'.shared.peer.closed = false →
        (d.shared.registry.Listed k' → d'.shared.registry.Listed k') ∧
          ∀ notify, .rawClose g notify ∉ d'.shared.log.drop d.shared.log.length) ↔
      ¬ c.Committed k) ∧
    ∀ d, Reach (sync text) anyStep c' d → d.shared.registry.Listed k' →
      (∀ data s, d.shared.pump = .messageLookup g data → d.shared.pumpStep text = some s →
        s.pump = .messagePut k' data) ∧
      (∀ graceful s, d.shared.pump = .disconnectedPop g graceful →
        d.shared.pumpStep text = some s → s.pump = .disconnectedMark k' graceful) := by
  obtain ⟨hr, hk, hclosed, hguid, hguid'⟩ := h.old
  have hr' := hr.trans (.single trivial hstep)
  obtain ⟨s, hs, rfl⟩ := Option.map_eq_some_iff.mp hstep
  have hs : c.shared.pumpStep text = some s := hs
  obtain ⟨hget, hopen', hconn⟩ := registers_get h.registers hs
  rw [hopen] at hopen'
  have hgrows := (step_registry hr hstep).grows (reach_registryInv hr).1.inv
  refine ⟨⟨?_, ?_⟩, ?_⟩
  · rintro hframe ⟨i, pc, hi, hpc⟩
    by_cases hpop : pc = .pop
    · -- its pop takes the new Connection out
      subst hpop
      obtain ⟨d, -, hd, hds, -⟩ := exists_closeStep text (c := { c with shared := s })
        (f := fun _ => s.set (s.peer.unregister (s.peer.connection k).rawGuid)) (q := .mark) hi
        fun _ => rfl
      obtain ⟨g', hg'⟩ := (hframe _ d i _ _ .start hi hd (by rw [hds]; exact hopen')).1 ⟨g, hget⟩
      rw [State.registry_connections, hds] at hg'
      simp only [State.set_peer, Peer.unregister_connections, Dict.get?_erase, hconn, hguid] at hg'
      split_ifs at hg' with hne
      refine hne ?_
      rw [← hguid', ← hconn]
      exact ((reach_registryInv hr').1.inv.listed_guid g' k' hg').symm
    · obtain ⟨d, hrd, hdi, hdopen, hdguid⟩ :=
        exists_raw text (c := { c with shared := s }) hi hpc hpop hopen'
      obtain ⟨d', notify, hd', hds', -⟩ := exists_closeStep text (c := d)
        (f := fun notify => d.shared.emit (.rawClose (d.shared.peer.connection k).rawGuid notify))
        (q := .mailbox) hdi fun _ => rfl
      refine (hframe d d' i .raw _ hrd hdi hd' (by rw [hds']; exact hdopen)).2 notify ?_
      have hg : (d.shared.peer.connection k).rawGuid = g := by
        rw [hdguid, ← hguid]
        exact congrArg (fun f => (f k).rawGuid) hconn
      simp [hds', hg]
  · intro hun d d' i pc x hrd hi hd hd'open
    have hun' : ¬ Sync.Committed { c with shared := s } k := hun
    have hnot := reach_uncommitted hr' hrd (Nat.lt_of_lt_of_le hk hgrows.created)
      (hgrows.closed k hk hclosed) hun'
    obtain ⟨⟨s₁, t₁⟩, hx, rfl⟩ := Option.map_eq_some_iff.mp hd
    obtain ⟨notify, pc', heff, -⟩ := (callStep_move hx).of_closing hi
    have hpc : pc.committed = false := by
      by_contra hne
      exact hnot ⟨i, pc, hi, by simpa using hne⟩
    obtain ⟨hsame, hlog⟩ := heff.frame hpc hd'open
    refine ⟨?_, ?_⟩
    · rintro ⟨g', hg'⟩
      exact ⟨g', hsame ▸ hg'⟩
    · intro notify'
      simp [hlog]
  · rintro d hrd ⟨g', hg'⟩
    have hrd' := hr'.trans hrd
    have hlt := ((reach_registryInv hr').1.inv.listed_published g k' hget).1
    have hg : g' = g := by
      rw [← (reach_registryInv hrd').1.inv.listed_guid g' k' hg', ← hguid', ← hconn]
      exact (reach_grows hr' hrd).guid k' hlt
    subst hg
    have hg' : d.shared.peer.connections.get? g' = some k' := hg'
    refine ⟨?_, ?_⟩
    · intro data s hp hs
      simp only [State.pumpStep, hp, hg', Option.some.injEq] at hs
      rw [← hs, State.goto_pump]
    · intro graceful s hp hs
      simp only [State.pumpStep, hp, hg', Option.some.injEq] at hs
      rw [← hs, State.goto_pump]

/-- A client connects, disconnects and connects again, while the user has begun to close its first
Connection and not yet looked at the flag: that close leaves the second Connection alone. -/
theorem close_frame_returned :
    ∃ c c', Returning SystemAddress.text (Sync.init none 0) 7 0 1 c ∧
      (sync SystemAddress.text).step c (.shared .pump) = some c' ∧
      ∀ d d' i pc x, Reach (sync SystemAddress.text) anyStep c' d →
        (d.thread i).closing = some (0, pc) →
        (sync SystemAddress.text).step d (.thread i x) = some d' → d'.shared.peer.closed = false →
        d.shared.registry.Listed 1 → d'.shared.registry.Listed 1 := by
  have h₁ : Reach (sync SystemAddress.text) anyStep (Sync.init none 0) _ :=
    .of_exec (show (sync SystemAddress.text).exec anyStep
      (routes ⟨⟨"10.0.0.1", 1⟩, 7, [19]⟩ 4 ++ routes ⟨⟨"10.0.0.1", 1⟩, 7, [22]⟩ 1 ++
        [.thread 0 (.inl (.close 0 true))]) (Sync.init none 0) = some _ from rfl)
  have h : Returning SystemAddress.text (Sync.init none 0) 7 0 1 _ :=
    ⟨⟨_, _, false, h₁, rfl, rfl, rfl, .of_exec (show (sync SystemAddress.text).exec anyStep
      (pumps 2 ++ routes ⟨⟨"10.0.0.1", 1⟩, 7, [19]⟩ 2) _ = some _ from rfl)⟩, rfl⟩
  refine ⟨_, _, h, rfl, ?_⟩
  intro d d' i pc x hr hi hs hopen
  refine ((close_frame h rfl rfl).1.mpr ?_ d d' i pc x hr hi hs hopen).1
  rintro ⟨j, pc', hj, hpc⟩
  cases j with
  | zero =>
    cases hj
    cases hpc
  | succ j => cases hj

/-- The user's close has found the first Connection open when the client disconnects and connects
again: its pop takes the second Connection out of the registry. -/
theorem close_removes_other :
    ∃ b b' c', Returning SystemAddress.text (Sync.init none 0) 7 0 1 b ∧
      (sync SystemAddress.text).step b (.shared .pump) = some b' ∧
      (b'.thread 0).closing = some (0, .pop) ∧
      (sync SystemAddress.text).step b' (.thread 0 (.inr .go)) = some c' ∧
      b'.shared.peer.connections.get? 7 = some 1 ∧ c'.shared.peer.connections.get? 7 = none ∧
      c'.shared.peer.closed = false := by
  have h₁ : Reach (sync SystemAddress.text) anyStep (Sync.init none 0) _ :=
    .of_exec (show (sync SystemAddress.text).exec anyStep
      (routes ⟨⟨"10.0.0.1", 1⟩, 7, [19]⟩ 4 ++ .thread 0 (.inl (.close 0 true)) :: steps 0 1 ++
        routes ⟨⟨"10.0.0.1", 1⟩, 7, [22]⟩ 1) (Sync.init none 0) = some _ from rfl)
  have h : Returning SystemAddress.text (Sync.init none 0) 7 0 1 _ :=
    ⟨⟨_, _, false, h₁, rfl, rfl, rfl, .of_exec (show (sync SystemAddress.text).exec anyStep
      (pumps 2 ++ routes ⟨⟨"10.0.0.1", 1⟩, 7, [19]⟩ 2) _ = some _ from rfl)⟩, rfl⟩
  exact ⟨_, _, _, h, rfl, rfl, rfl, rfl, rfl, rfl⟩

end Raknet
