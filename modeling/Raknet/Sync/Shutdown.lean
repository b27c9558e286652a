import Raknet.Effects.Calls
import Raknet.Effects.Shared

/-!
# The order of a shutdown

The flag, the tables, the pump and the closer move together: the flag is set exactly when the
closer begins, the pending tables are empty from then on, and the closer passes the join only
when the pump runs no callback any more.

**Theorem (`reach_shutdownInv`).** This holds throughout every run.
-/

namespace Raknet

open Interleaving

/-- The closer has passed the join, or is the failing pump itself. -/
def Teardown.joined : Teardown → Bool
  | unbegun | joining _ | cancelled _ => false
  | _ => true

/-- The pump has left its loop. -/
def PumpPc.stopped : PumpPc → Bool
  | failing | exited => true
  | _ => false

structure ShutdownInv (s : State) : Prop where
  begun : s.peer.closed = true ↔ s.teardown ≠ .unbegun
  connects : s.peer.closed = true → ∀ k, s.peer.pendingConnects.get? k = none
  pings : s.peer.closed = true → ∀ k, s.peer.pendingPings.get? k = none
  joined : s.teardown.joined = true → s.pump.stopped = true
  failing : s.pump = .failing → s.teardown.joined = true
  exited : s.pump = .exited → s.peer.closed = true

variable {text : SystemAddress → String} {s s' : State}

@[simp] theorem PumpPc.stopped_enter (cb : Option Callback) :
    (PumpPc.enter cb).stopped = false := by
  rcases cb with _ | ⟨_ | _⟩ <;> rfl

theorem PumpPc.DropsIn.stopped {p : Peer} {pc : PumpPc} (h : pc.DropsIn text p) :
    pc.stopped = false := by
  cases pc <;> first | rfl | exact h.elim

@[simp] theorem PumpPc.enter_ne_failing (cb : Option Callback) : PumpPc.enter cb ≠ .failing := by
  rcases cb with _ | ⟨_ | _⟩ <;> simp [PumpPc.enter]

@[simp] theorem PumpPc.enter_ne_exited (cb : Option Callback) : PumpPc.enter cb ≠ .exited := by
  rcases cb with _ | ⟨_ | _⟩ <;> simp [PumpPc.enter]

theorem ShutdownInv.unbegun (h : ShutdownInv s) (hopen : s.peer.closed = false) :
    s.teardown = .unbegun := by
  by_contra hbegun
  simp [h.begun.mpr hbegun] at hopen

theorem ActEffect.closed_kept {e : State.Act} (h : ActEffect text s e s')
    (hclosed : s.peer.closed = true) : s'.peer.closed = true := by
  cases h <;> simp [hclosed]

theorem CallEffect.closed_kept {i : CallId} {t : Call} (h : CallEffect text i s t s')
    (hclosed : s.peer.closed = true) : s'.peer.closed = true := by
  cases h <;> simp [hclosed]

theorem shutdownInv_init (q : Option Nat) (t₀ : Int) : ShutdownInv (State.init q t₀) := by
  constructor <;> simp [State.init, Peer.init, Teardown.joined]

theorem CallEffect.shutdownInv {i : CallId} {t : Call} (h : CallEffect text i s t s')
    (hi : ShutdownInv s) : ShutdownInv s' := by
  obtain ⟨h1, h2, h3, h4, h5, h6⟩ := hi
  cases h
  case beginClose hopen =>
    constructor <;> simp_all [Teardown.joined]
  all_goals
    constructor <;> simp_all

theorem ActEffect.shutdownInv {e : State.Act} (h : ActEffect text s e s') (hi : ShutdownInv s) :
    ShutdownInv s' := by
  obtain ⟨h1, h2, h3, h4, h5, h6⟩ := hi
  cases h
  case drop hp =>
    have hstop := hp.stopped
    constructor <;> simp_all
  all_goals
    constructor <;> simp_all [Teardown.joined, PumpPc.stopped]

theorem reach_shutdownInv {ok : Sync → SyncAction → Prop} {c : Sync}
    {q : Option Nat} {t₀ : Int} (h : Reach (sync text) ok (Sync.init q t₀) c) :
    ShutdownInv c.shared := by
  refine h.invariant (I := fun c => ShutdownInv c.shared) (shutdownInv_init q t₀) ?_
  intro c a c' _ _ hs hi
  rcases System.step_cases hs with ⟨e, s, rfl, he, rfl⟩ | ⟨i, x, s, t, rfl, hx, rfl⟩
  · exact (act_effect he).shutdownInv hi
  · exact (callStep_effect hx).shutdownInv hi

end Raknet
