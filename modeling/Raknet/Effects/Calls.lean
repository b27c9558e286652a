import Raknet.Calls

/-!
# What the steps of the calls do

The calls are read once, transition by transition: `CloseEffect`, `ConnectEffect`, `PingEffect` and
`AcceptEffect` list where each program counter may go and what happens to the shared state on the
way, and `CallMove` puts them together.

**Theorem (`callStep_move`, `CallMove.effect`).** Every step of a call is a `CallMove`; and whatever
call it is, the shared state changes in one of the ways `CallEffect` lists. The invariants of the
later modules are derived from these lists.
-/

namespace Raknet

variable {text : SystemAddress → String}

/-! ## `Connection.close` -/

/-- What a step of `Connection.close` does, and where it goes on, if it does. -/
inductive CloseEffect (c : ConnId) (notify : Bool) (s : State) :
    ClosePc → State → Option ClosePc → Prop
  | skip (hclosed : (s.peer.connection c).closed = true) :
      CloseEffect c notify s .check s (some .owns)
  | check (hopen : (s.peer.connection c).closed = false) :
      CloseEffect c notify s .check s (some .pop)
  | pop : CloseEffect c notify s .pop
      (s.set (s.peer.unregister (s.peer.connection c).rawGuid)) (some .mark)
  | mark : CloseEffect c notify s .mark (s.set (s.peer.markClosed c)) (some .checkPeer)
  | skipRaw (hclosed : s.peer.closed = true) :
      CloseEffect c notify s .checkPeer s (some .mailbox)
  | checkPeer (hopen : s.peer.closed = false) :
      CloseEffect c notify s .checkPeer s (some .raw)
  | raw : CloseEffect c notify s .raw
      (s.emit (.rawClose (s.peer.connection c).rawGuid notify)) (some .mailbox)
  | mailbox : CloseEffect c notify s .mailbox
      (s.set (s.peer.closeMailbox c (.ok "connection closed"))) (some .owns)
  | shared (hown : (s.peer.connection c).ownsPeer = false) :
      CloseEffect c notify s .owns s none
  | owns (hown : (s.peer.connection c).ownsPeer = true) :
      CloseEffect c notify s .owns s (some (.peer .begin))
  | lost (hclosed : s.peer.closed = true) : CloseEffect c notify s (.peer .begin) s none
  | begin (hopen : s.peer.closed = false) :
      CloseEffect c notify s (.peer .begin) (s.beginClose .joining) (some (.peer .closing))
  | closed (hdone : s.teardown = .done) : CloseEffect c notify s (.peer .closing) s none

/-- Where a sub-machine goes on. -/
def Next.pc? {π ρ : Type} : Next π ρ → Option π
  | pc p => some p
  | ret _ => none

theorem closeStep_closeEffect {s : State} {c : ConnId} {notify : Bool} {pc : ClosePc}
    {r : State × Next ClosePc Unit} (h : closeStep c notify s pc = some r) :
    CloseEffect c notify s pc r.1 r.2.pc? := by
  cases pc with
  | check =>
    cases h
    split_ifs with hc
    · exact .skip hc
    · exact .check (by simpa using hc)
  | pop => cases h; exact .pop
  | mark => cases h; exact .mark
  | checkPeer =>
    cases h
    split_ifs with hc
    · exact .skipRaw hc
    · exact .checkPeer (by simpa using hc)
  | raw => cases h; exact .raw
  | mailbox => cases h; exact .mailbox
  | owns =>
    cases h
    split_ifs with hc
    · exact .owns hc
    · exact .shared (by simpa using hc)
  | peer q =>
    simp only [closeStep, Option.map_eq_some_iff] at h
    obtain ⟨⟨s', n⟩, hs, rfl⟩ := h
    cases q <;> simp only [closePeerStep] at hs <;> split_ifs at hs with hc <;> cases hs
    · exact .lost hc
    · exact .begin (by simpa using hc)
    · exact .closed hc

/-! ## `Peer.connect` and `create_connection` -/

/-- The transitions of `Peer.connect`, called by call `i`. -/
inductive ConnectEffect (text : SystemAddress → String) (i : CallId) (args : ConnectArgs)
    (s : State) : ConnectPc → State → ConnectPc → Prop
  -- _start_connect
  | refused (hclosed : s.peer.closed = true) :
      ConnectEffect text i args s (.start .checkOpen) s (args.leave peerIsClosed)
  | checkOpen (hopen : s.peer.closed = false) :
      ConnectEffect text i args s (.start .checkOpen) s (.start .checkAttempts)
  | fewAttempts (message : String) (h : args.attempts < 3) :
      ConnectEffect text i args s (.start .checkAttempts) s (args.leave (.value message))
  | checkAttempts (h : ¬ args.attempts < 3) :
      ConnectEffect text i args s (.start .checkAttempts) s (.start .resolve)
  | unresolved :
      ConnectEffect text i args s (.start .resolve) s
        (args.leave (.connect args.host args.port (.attempt .cannotResolveDomainName)))
  | resolve (ip : String) :
      ConnectEffect text i args s (.start .resolve) (s.set (s.peer.setPendingConnect i .new))
        (.start (.register ⟨ip, args.port⟩))
  | closedMeanwhile (a : SystemAddress) (hclosed : s.peer.closed = true) :
      ConnectEffect text i args s (.start (.register a)) s (args.leave peerIsClosed)
  | register (a : SystemAddress) (hopen : s.peer.closed = false) :
      ConnectEffect text i args s (.start (.register a))
        ((s.set (s.peer.registerConnect (text a) i)).emit (.connectEntered i a))
        (.start (.rawConnect a))
  | started (a : SystemAddress) :
      ConnectEffect text i args s (.start (.rawConnect a)) s (.wait a)
  | rawRefused (a : SystemAddress) (r : ConnectionAttemptResult)
      (hr : r ≠ .connectionAttemptStarted) :
      ConnectEffect text i args s (.start (.rawConnect a)) s (.start (.popFailed a r))
  | rawRaised (a : SystemAddress) (message : String) :
      ConnectEffect text i args s (.start (.rawConnect a)) s (args.leave (.raw message))
  | popFailed (a : SystemAddress) (r : ConnectionAttemptResult) :
      ConnectEffect text i args s (.start (.popFailed a r)) (s.set (s.peer.popConnect (text a)))
        (args.leave (.connect args.host args.port (.attempt r)))
  -- the wait and _abandon_connect
  | woken (a : SystemAddress) (hevent : (s.peer.pendingConnect i).event = true) :
      ConnectEffect text i args s (.wait a) s .finish
  | timeout (a : SystemAddress) : ConnectEffect text i args s (.wait a) s (.abandon a .pop)
  | late (a : SystemAddress) (hget : s.peer.pendingConnects.get? (text a) = none) :
      ConnectEffect text i args s (.abandon a .pop) s (.waitAgain a)
  | abandon (a : SystemAddress) (j : CallId)
      (hget : s.peer.pendingConnects.get? (text a) = some j) :
      ConnectEffect text i args s (.abandon a .pop) (s.set (s.peer.popConnect (text a)))
        (.abandon a .cancel)
  | cancel (a : SystemAddress) :
      ConnectEffect text i args s (.abandon a .cancel) (s.emit (.rawCancel a))
        (args.leave args.timedOut)
  | wokenLate (a : SystemAddress) (hevent : (s.peer.pendingConnect i).event = true)
      (hnone : (s.peer.pendingConnect i).connection = none) :
      ConnectEffect text i args s (.waitAgain a) s (args.leave args.timedOut)
  | orphan (a : SystemAddress) (c : ConnId) (hevent : (s.peer.pendingConnect i).event = true)
      (hconn : (s.peer.pendingConnect i).connection = some c) :
      ConnectEffect text i args s (.waitAgain a) s (.reap c .check)
  | reap (c : ConnId) (pc pc' : ClosePc) (s' : State) (h : CloseEffect c true s pc s' (some pc')) :
      ConnectEffect text i args s (.reap c pc) s' (.reap c pc')
  | reaped (c : ConnId) (pc : ClosePc) (s' : State) (h : CloseEffect c true s pc s' none) :
      ConnectEffect text i args s (.reap c pc) s' (args.leave args.timedOut)
  -- _finish_connect
  | finish (c : ConnId) (h : finishConnect args (s.peer.pendingConnect i) = .ok c) :
      ConnectEffect text i args s .finish s (args.give c)
  | failed (e : Error) (h : finishConnect args (s.peer.pendingConnect i) = .error e) :
      ConnectEffect text i args s .finish s (args.leave e)
  -- create_connection
  | closeLost (e : Error) (hclosed : s.peer.closed = true) :
      ConnectEffect text i args s (.closePeer e .begin) s (.raised e)
  | closeBegin (e : Error) (hopen : s.peer.closed = false) :
      ConnectEffect text i args s (.closePeer e .begin) (s.beginClose .joining)
        (.closePeer e .closing)
  | closeDone (e : Error) (hdone : s.teardown = .done) :
      ConnectEffect text i args s (.closePeer e .closing) s (.raised e)
  | own (c : ConnId) :
      ConnectEffect text i args s (.own c) (s.set (s.peer.own c)) (.returned c)

theorem startStep_connectEffect {s : State} {args : ConnectArgs} {pc : StartPc} {ch : Choice}
    {i : CallId} {r : State × Next StartPc (Except Error SystemAddress)}
    (h : startStep text i args s pc ch = some r) :
    ConnectEffect text i args s (.start pc) r.1
      (match r.2 with
        | .pc pc' => .start pc'
        | .ret (.ok a) => .wait a
        | .ret (.error e) => args.leave e) := by
  cases pc <;> cases ch <;> simp only [startStep, reduceCtorEq] at h
  case checkOpen.go =>
    cases h
    split_ifs with hc
    · exact .refused hc
    · exact .checkOpen (by simpa using hc)
  case checkAttempts.go =>
    cases h
    split_ifs with hc
    · exact .fewAttempts _ hc
    · exact .checkAttempts hc
  case resolve.resolved ip =>
    cases ip <;> cases h
    · exact .unresolved
    · exact .resolve _
  case register.go a =>
    split_ifs at h with hc <;> cases h
    · exact .closedMeanwhile a hc
    · exact .register a (by simpa using hc)
  case rawConnect.connectResult a r =>
    cases h
    split_ifs with hr
    · exact .started a
    · exact .rawRefused a r hr
  case rawConnect.connectRaises a message =>
    cases h
    exact .rawRaised a message
  case popFailed.go a r =>
    cases h
    exact .popFailed a r

theorem connectStep_connectEffect {s s' : State} {args : ConnectArgs} {pc pc' : ConnectPc}
    {ch : Choice} {i : CallId} (h : connectStep text i args s pc ch = some (s', pc')) :
    ConnectEffect text i args s pc s' pc' := by
  cases pc with
  | start pc =>
    obtain ⟨⟨s₁, n⟩, hs, hn⟩ := Option.map_eq_some_iff.mp h
    have he := startStep_connectEffect hs
    rcases n with _ | _ | _ <;> cases hn <;> exact he
  | wait a =>
    cases ch <;> simp only [connectStep, reduceCtorEq] at h
    · split_ifs at h with hevent
      cases h
      exact .woken a hevent
    · cases h
      exact .timeout a
  | abandon a q =>
    cases ch <;> simp only [connectStep, reduceCtorEq] at h
    obtain ⟨⟨s₁, n⟩, hs, hn⟩ := Option.map_eq_some_iff.mp h
    cases q <;> simp only [abandonStep] at hs
    · split at hs <;> cases hs <;> cases hn
      · next hget => exact .late a hget
      · next j hget => exact .abandon a j hget
    · cases hs
      cases hn
      exact .cancel a
  | waitAgain a =>
    cases ch <;> simp only [connectStep, reduceCtorEq] at h
    split_ifs at h with hevent
    cases h
    split
    · next c hc => exact .orphan a c hevent hc
    · next hc => exact .wokenLate a hevent hc
  | reap c q =>
    cases ch <;> simp only [connectStep, reduceCtorEq] at h
    obtain ⟨⟨s₁, n⟩, hs, hn⟩ := Option.map_eq_some_iff.mp h
    have he := closeStep_closeEffect hs
    rcases n with q' | _ <;> cases hn
    · exact .reap c q q' s' he
    · exact .reaped c q s' he
  | finish =>
    cases ch <;> simp only [connectStep, reduceCtorEq] at h
    cases h
    split
    · next c hc => exact .finish c hc
    · next e he => exact .failed e he
  | closePeer e q =>
    cases ch <;> simp only [connectStep, reduceCtorEq] at h
    obtain ⟨⟨s₁, n⟩, hs, hn⟩ := Option.map_eq_some_iff.mp h
    cases q <;> simp only [closePeerStep] at hs <;> split_ifs at hs with hc <;> cases hs <;>
      cases hn
    · exact .closeLost e hc
    · exact .closeBegin e (by simpa using hc)
    · exact .closeDone e hc
  | own c =>
    cases ch <;> simp only [connectStep, reduceCtorEq] at h
    cases h
    exact .own c
  | returned c | raised e => cases ch <;> simp [connectStep] at h

/-! ## `Peer.ping` and `Peer.accept` -/

/-- The transitions of `Peer.ping`, called by call `i`. -/
inductive PingEffect (text : SystemAddress → String) (i : CallId) (args : PingArgs) (s : State) :
    PingPc → State → PingPc → Prop
  | refused (hclosed : s.peer.closed = true) :
      PingEffect text i args s (.start .checkOpen) s (.raised peerIsClosed)
  | checkOpen (hopen : s.peer.closed = false) :
      PingEffect text i args s (.start .checkOpen) s (.start .resolve)
  | unresolved (message : String) :
      PingEffect text i args s (.start .resolve) s (.raised (.rakNet message))
  | resolve (ip : String) :
      PingEffect text i args s (.start .resolve) (s.set (s.peer.setPendingPing i (.new s.clock)))
        (.start (.register ⟨ip, args.port⟩))
  | closedMeanwhile (a : SystemAddress) (hclosed : s.peer.closed = true) :
      PingEffect text i args s (.start (.register a)) s (.raised peerIsClosed)
  | register (a : SystemAddress) (hopen : s.peer.closed = false) :
      PingEffect text i args s (.start (.register a))
        ((s.set (s.peer.registerPing (text a) i)).emit (.pingEntered i)) (.start (.rawPing a))
  | started (a : SystemAddress) : PingEffect text i args s (.start (.rawPing a)) s (.wait a)
  | rawFailed (a : SystemAddress) :
      PingEffect text i args s (.start (.rawPing a)) s (.start (.popFailed a))
  | popFailed (a : SystemAddress) (message : String) :
      PingEffect text i args s (.start (.popFailed a)) (s.set (s.peer.popPing (text a)))
        (.raised (.rakNet message))
  | woken (a : SystemAddress) (hevent : (s.peer.pendingPing i).event = true) :
      PingEffect text i args s (.wait a) s .finish
  | timeout (a : SystemAddress) : PingEffect text i args s (.wait a) s (.popTimedOut a)
  | popTimedOut (a : SystemAddress) (message : String) :
      PingEffect text i args s (.popTimedOut a) (s.set (s.peer.popPing (text a)))
        (.raised (.timeout message))
  | finish : PingEffect text i args s .finish s (finishPing (s.peer.pendingPing i))

theorem pingStep_pingEffect {s s' : State} {args : PingArgs} {pc pc' : PingPc} {ch : Choice}
    {i : CallId} (h : pingStep text i args s pc ch = some (s', pc')) :
    PingEffect text i args s pc s' pc' := by
  cases pc with
  | start pc =>
    obtain ⟨⟨s₁, n⟩, hs, hn⟩ := Option.map_eq_some_iff.mp h
    cases pc <;> cases ch <;> simp only [startPingStep, reduceCtorEq] at hs
    case checkOpen.go =>
      split_ifs at hs with hc <;> cases hs <;> cases hn
      · exact .refused hc
      · exact .checkOpen (by simpa using hc)
    case resolve.resolved ip =>
      cases ip <;> cases hs <;> cases hn
      · exact .unresolved _
      · exact .resolve _
    case register.go a =>
      split_ifs at hs with hc <;> cases hs <;> cases hn
      · exact .closedMeanwhile a hc
      · exact .register a (by simpa using hc)
    case rawPing.pingResult a ok =>
      cases ok <;> cases hs <;> cases hn
      · exact .rawFailed a
      · exact .started a
    case popFailed.go a =>
      cases hs
      cases hn
      exact .popFailed a _
  | wait a =>
    cases ch <;> simp only [pingStep, reduceCtorEq] at h
    · split_ifs at h with hevent
      cases h
      exact .woken a hevent
    · cases h
      exact .timeout a
  | popTimedOut a =>
    cases ch <;> simp only [pingStep, reduceCtorEq] at h
    cases h
    exact .popTimedOut a _
  | finish =>
    cases ch <;> simp only [pingStep, reduceCtorEq] at h
    cases h
    exact .finish
  | returned p | raised e => cases ch <;> simp [pingStep] at h

/-- The transitions of `Peer.accept`. -/
inductive AcceptEffect (s : State) : AcceptPc → State → AcceptPc → Prop
  | refused (hclosed : s.peer.closed = true) :
      AcceptEffect s .checkOpen s (.raised peerIsClosed)
  | checkOpen (hopen : s.peer.closed = false) : AcceptEffect s .checkOpen s .get
  | get (c : ConnId) (rest : List (Option ConnId)) (hqueue : s.peer.acceptQueue = some c :: rest) :
      AcceptEffect s .get (s.set s.peer.acceptPop) (.returned c)
  | getSentinel (rest : List (Option ConnId)) (hqueue : s.peer.acceptQueue = none :: rest) :
      AcceptEffect s .get (s.set s.peer.acceptPop) .putBack
  | timeout : AcceptEffect s .get s (.raised (.timeout "accept timed out"))
  | putBack : AcceptEffect s .putBack (s.set (s.peer.acceptPut none)) (.raised peerIsClosed)

theorem acceptStep_acceptEffect {s s' : State} {pc pc' : AcceptPc} {ch : Choice}
    (h : acceptStep s pc ch = some (s', pc')) : AcceptEffect s pc s' pc' := by
  cases pc <;> cases ch <;> simp only [acceptStep, reduceCtorEq] at h
  case checkOpen.go =>
    cases h
    split_ifs with hc
    · exact .refused hc
    · exact .checkOpen (by simpa using hc)
  case get.go =>
    split at h <;> cases h
    · next c rest hqueue => exact .get c rest hqueue
    · next rest hqueue => exact .getSentinel rest hqueue
  case get.timeout =>
    cases h
    exact .timeout
  case putBack.go =>
    cases h
    exact .putBack

/-! ## Any call -/

/-- The transitions of call `i`. -/
inductive CallMove (text : SystemAddress → String) (i : CallId) (s : State) :
    Call → State → Call → Prop
  | begin (start : CallStart) (t : Call) (h : startCall s start = some t) :
      CallMove text i s .idle s t
  | connect (args : ConnectArgs) (pc pc' : ConnectPc) (s' : State)
      (h : ConnectEffect text i args s pc s' pc') :
      CallMove text i s (.connect args pc) s' (.connect args pc')
  | ping (args : PingArgs) (pc pc' : PingPc) (s' : State) (h : PingEffect text i args s pc s' pc') :
      CallMove text i s (.ping args pc) s' (.ping args pc')
  | accept (pc pc' : AcceptPc) (s' : State) (h : AcceptEffect s pc s' pc') :
      CallMove text i s (.accept pc) s' (.accept pc')
  | close (c : ConnId) (notify : Bool) (pc pc' : ClosePc) (s' : State)
      (h : CloseEffect c notify s pc s' (some pc')) :
      CallMove text i s (.close c notify pc) s' (.close c notify pc')
  | closed (c : ConnId) (notify : Bool) (pc : ClosePc) (s' : State)
      (h : CloseEffect c notify s pc s' none) :
      CallMove text i s (.close c notify pc) s' (.closed c)
  | closeLost (hclosed : s.peer.closed = true) :
      CallMove text i s (.closePeer .begin) s .closedPeer
  | closeBegin (hopen : s.peer.closed = false) :
      CallMove text i s (.closePeer .begin) (s.beginClose .joining) (.closePeer .closing)
  | closeDone (hdone : s.teardown = .done) :
      CallMove text i s (.closePeer .closing) s .closedPeer

theorem callStep_move {s s' : State} {t t' : Call} {ch : CallStart ⊕ Choice} {i : CallId}
    (h : callStep text i ch s t = some (s', t')) : CallMove text i s t s' t' := by
  cases t <;> rcases ch with start | ch <;> simp only [callStep, reduceCtorEq] at h
  case idle.inl =>
    obtain ⟨u, hu, hs⟩ := Option.map_eq_some_iff.mp h
    cases hs
    exact .begin start _ hu
  case connect.inr args pc =>
    obtain ⟨⟨s₁, pc'⟩, hr, hu⟩ := Option.map_eq_some_iff.mp h
    cases hu
    exact .connect args pc pc' _ (connectStep_connectEffect hr)
  case ping.inr args pc =>
    obtain ⟨⟨s₁, pc'⟩, hr, hu⟩ := Option.map_eq_some_iff.mp h
    cases hu
    exact .ping args pc pc' _ (pingStep_pingEffect hr)
  case accept.inr pc =>
    obtain ⟨⟨s₁, pc'⟩, hr, hu⟩ := Option.map_eq_some_iff.mp h
    cases hu
    exact .accept pc pc' _ (acceptStep_acceptEffect hr)
  case close.inr c notify pc =>
    cases ch <;> simp only [reduceCtorEq] at h
    obtain ⟨⟨s₁, n⟩, hr, hu⟩ := Option.map_eq_some_iff.mp h
    have he := closeStep_closeEffect hr
    rcases n with pc' | _ <;> cases hu
    · exact .close c notify pc pc' _ he
    · exact .closed c notify pc _ he
  case closePeer.inr pc =>
    cases ch <;> simp only [reduceCtorEq] at h
    obtain ⟨⟨s₁, n⟩, hr, hu⟩ := Option.map_eq_some_iff.mp h
    cases pc <;> simp only [closePeerStep] at hr <;> split_ifs at hr with hc <;> cases hr <;>
      cases hu
    · exact .closeLost hc
    · exact .closeBegin (by simpa using hc)
    · exact .closeDone hc

/-! ## The shared state -/

/-- The `Connection.close` a call is in. -/
def Call.closing : Call → Option (ConnId × ClosePc)
  | .close c _ pc | .connect _ (.reap c pc) => some (c, pc)
  | _ => none

/-- What a step of call `i` may do to the shared state, and from which program counters. -/
inductive CallEffect (text : SystemAddress → String) (i : CallId) (s : State) (t : Call) :
    State → Prop
  | none : CallEffect text i s t s
  | newConnect (args : ConnectArgs) (h : t = .connect args (.start .resolve)) :
      CallEffect text i s t (s.set (s.peer.setPendingConnect i .new))
  | registerConnect (args : ConnectArgs) (a : SystemAddress)
      (h : t = .connect args (.start (.register a))) (hopen : s.peer.closed = false) :
      CallEffect text i s t ((s.set (s.peer.registerConnect (text a) i)).emit (.connectEntered i a))
  | popFailed (args : ConnectArgs) (a : SystemAddress) (r : ConnectionAttemptResult)
      (h : t = .connect args (.start (.popFailed a r))) :
      CallEffect text i s t (s.set (s.peer.popConnect (text a)))
  | popAbandoned (args : ConnectArgs) (a : SystemAddress) (j : CallId)
      (h : t = .connect args (.abandon a .pop))
      (hget : s.peer.pendingConnects.get? (text a) = some j) :
      CallEffect text i s t (s.set (s.peer.popConnect (text a)))
  | cancel (args : ConnectArgs) (a : SystemAddress) (h : t = .connect args (.abandon a .cancel)) :
      CallEffect text i s t (s.emit (.rawCancel a))
  | own (args : ConnectArgs) (c : ConnId) (h : t = .connect args (.own c)) :
      CallEffect text i s t (s.set (s.peer.own c))
  | newPing (args : PingArgs) (h : t = .ping args (.start .resolve)) :
      CallEffect text i s t (s.set (s.peer.setPendingPing i (.new s.clock)))
  | registerPing (args : PingArgs) (a : SystemAddress)
      (h : t = .ping args (.start (.register a))) (hopen : s.peer.closed = false) :
      CallEffect text i s t ((s.set (s.peer.registerPing (text a) i)).emit (.pingEntered i))
  | popPing (args : PingArgs) (a : SystemAddress)
      (h : t = .ping args (.start (.popFailed a)) ∨ t = .ping args (.popTimedOut a)) :
      CallEffect text i s t (s.set (s.peer.popPing (text a)))
  | acceptPop (h : t = .accept .get) : CallEffect text i s t (s.set s.peer.acceptPop)
  | acceptPut (h : t = .accept .putBack) :
      CallEffect text i s t (s.set (s.peer.acceptPut Option.none))
  | unregister (c : ConnId) (h : t.closing = some (c, .pop)) :
      CallEffect text i s t (s.set (s.peer.unregister (s.peer.connection c).rawGuid))
  | mark (c : ConnId) (h : t.closing = some (c, .mark)) :
      CallEffect text i s t (s.set (s.peer.markClosed c))
  | rawClose (c : ConnId) (notify : Bool) (h : t.closing = some (c, .raw)) :
      CallEffect text i s t (s.emit (.rawClose (s.peer.connection c).rawGuid notify))
  | closeMailbox (c : ConnId) (h : t.closing = some (c, .mailbox)) :
      CallEffect text i s t (s.set (s.peer.closeMailbox c (.ok "connection closed")))
  | beginClose (hopen : s.peer.closed = false) : CallEffect text i s t (s.beginClose .joining)

theorem CloseEffect.effect {s s' : State} {c : ConnId} {notify : Bool} {pc : ClosePc}
    {pc' : Option ClosePc} {i : CallId} {t : Call} (h : CloseEffect c notify s pc s' pc')
    (ht : t.closing = some (c, pc)) : CallEffect text i s t s' := by
  cases h with
  | pop => exact .unregister c ht
  | mark => exact .mark c ht
  | raw => exact .rawClose c notify ht
  | mailbox => exact .closeMailbox c ht
  | begin hopen => exact .beginClose hopen
  | _ => exact .none

theorem CallMove.effect {s s' : State} {t t' : Call} {i : CallId}
    (h : CallMove text i s t s' t') : CallEffect text i s t s' := by
  cases h with
  | begin start t h => exact .none
  | connect args pc pc' s' h =>
    cases h with
    | resolve ip => exact .newConnect args rfl
    | register a hopen => exact .registerConnect args a rfl hopen
    | popFailed a r => exact .popFailed args a r rfl
    | abandon a j hget => exact .popAbandoned args a j rfl hget
    | cancel a => exact .cancel args a rfl
    | reap c pc pc' s' h => exact h.effect rfl
    | reaped c pc s' h => exact h.effect rfl
    | closeBegin e hopen => exact .beginClose hopen
    | own c => exact .own args c rfl
    | _ => exact .none
  | ping args pc pc' s' h =>
    cases h with
    | resolve ip => exact .newPing args rfl
    | register a hopen => exact .registerPing args a rfl hopen
    | popFailed a message => exact .popPing args a (Or.inl rfl)
    | popTimedOut a message => exact .popPing args a (Or.inr rfl)
    | _ => exact .none
  | accept pc pc' s' h =>
    cases h with
    | get c rest hqueue => exact .acceptPop rfl
    | getSentinel rest hqueue => exact .acceptPop rfl
    | putBack => exact .acceptPut rfl
    | _ => exact .none
  | close c notify pc pc' s' h => exact h.effect rfl
  | closed c notify pc s' h => exact h.effect rfl
  | closeLost hclosed => exact .none
  | closeBegin hopen => exact .beginClose hopen
  | closeDone hdone => exact .none

theorem callStep_effect {s s' : State} {t t' : Call} {ch : CallStart ⊕ Choice} {i : CallId}
    (h : callStep text i ch s t = some (s', t')) : CallEffect text i s t s' :=
  (callStep_move h).effect

@[simp] theorem closing_leave (args : ConnectArgs) (e : Error) :
    (Call.connect args (args.leave e)).closing = none := by
  unfold ConnectArgs.leave
  split_ifs <;> rfl

@[simp] theorem closing_give (args : ConnectArgs) (c : ConnId) :
    (Call.connect args (args.give c)).closing = none := by
  unfold ConnectArgs.give
  split_ifs <;> rfl

theorem CallMove.of_closing {s s' : State} {t t' : Call} {i : CallId} {c : ConnId} {pc : ClosePc}
    (h : CallMove text i s t s' t') (ht : t.closing = some (c, pc)) :
    ∃ notify pc', CloseEffect c notify s pc s' pc' ∧ t'.closing = pc'.map (c, ·) := by
  cases h with
  | connect args q q' s' h =>
    cases h <;> cases ht
    · next q' h => exact ⟨true, some q', h, rfl⟩
    · next h => exact ⟨true, none, h, by simp⟩
  | close k notify q q' s' h =>
    cases ht
    exact ⟨notify, some q', h, rfl⟩
  | closed k notify q s' h =>
    cases ht
    exact ⟨notify, none, h, rfl⟩
  | _ => cases ht

end Raknet
