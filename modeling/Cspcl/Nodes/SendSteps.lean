import Cspcl.Delivery.Returns
import Cspcl.Nodes.Waits

/-!
# The steps of `send_raw`

* `Nodes.SendStep`, `Nodes.send_step`: what a step of a thread in `send_raw` does.
-/

namespace Cspcl

namespace Nodes

variable {s s' : Nodes} {t i : Nat} {bundle : Bundle} {addr port : UInt8} {w : Bool}

/-- Thread `t` is at `p` in a send. -/
def InSend (s : Nodes) (t i : Nat) (bundle : Bundle) (addr port : UInt8) (p : SendAt) : Prop :=
  ∃ w, s.thread t = some ⟨.send i bundle addr port p, w⟩

/-- A step of thread `t`, which is in `send_raw`. -/
inductive SendStep (s s' : Nodes) (op : NodesOp) (t i : Nat) (bundle : Bundle) (addr port : UInt8) :
    SendAt → Prop
  | locks : s'.d = s.d → s'.InSend t i bundle addr port .turn →
    SendStep s s' op t i bundle addr port .turn
  | cancelled {env : NodeEnv} : op = .run t env → env.cancelled = true → s'.d = s.d →
    s'.InSend t i bundle addr port .leaving → SendStep s s' op t i bundle addr port .turn
  | enters {env : NodeEnv} : op = .run t env → env.cancelled = false →
    s.d.step (.send t i bundle addr port) = some s'.d →
    s'.InSend t i bundle addr port (if s'.d.tx.send t = .idle then .leaving else .inC) →
    SendStep s s' op t i bundle addr port .turn
  | inside {dop : DeliveryOp} : s.d.step dop = some s'.d → dop.sender = some t →
    s'.InSend t i bundle addr port (if s'.d.tx.send t = .idle then .leaving else .inC) →
    SendStep s s' op t i bundle addr port .inC
  | leaves : s'.d = s.d → SendStep s s' op t i bundle addr port .leaving

theorem inSend_goto {s : Nodes} {p : SendAt} :
    (s.goto t (.send i bundle addr port p)).InSend t i bundle addr port p :=
  ⟨_, Function.update_self ..⟩

/-- It returns from C, or stays there. -/
theorem SendStep.goesOn {s₁ : Nodes} {op : NodesOp} {dop : DeliveryOp}
    (hd : s.d.step dop = some s₁.d) (ho : dop.sender = some t)
    (h : s₁.InSend t i bundle addr port .inC) :
    SendStep s (if s₁.d.tx.send t = .idle then s₁.goto t (.send i bundle addr port .leaving)
      else s₁) op t i bundle addr port .inC := by
  split
  · rename_i hidle
    refine .inside hd ho ?_
    rw [show (s₁.goto t (.send i bundle addr port .leaving)).d = s₁.d from rfl, if_pos hidle]
    exact inSend_goto
  · rename_i hin
    refine .inside hd ho ?_
    rw [if_neg hin]
    exact h

theorem send_step {op : NodesOp} {p : SendAt} (h : s.Inv) (ht : s.InSend t i bundle addr port p)
    (hs : s.step op = some s') (ho : op.thread = some t) :
    SendStep s s' op t i bundle addr port p := by
  obtain ⟨w, ht⟩ := ht
  cases op with
  | call u j k | init u n | panic u =>
    obtain rfl := Option.some.inj ho
    simp [Nodes.step, ht] at hs
  | cloneCspcl | poll | loseFrag | loseAck => cases ho
  | lock u ok =>
    obtain rfl := Option.some.inj ho
    simp only [Nodes.step] at hs
    split at hs
    · rename_i th m hth hm
      obtain rfl : th = ⟨.send i bundle addr port p, w⟩ := Option.some.inj (hth.symm.trans ht)
      split at hs
      · cases hs
      split at hs
      · rename_i hc
        obtain ⟨_, _, _, _, heq⟩ := inC_of_wants ht hm hc
        obtain ⟨rfl, rfl, rfl, rfl, rfl⟩ := NodePlace.send.inj (NodeThread.mk.inj heq).1
        obtain ⟨s₁, hs₁, rfl⟩ := Option.map_eq_some_iff.mp hs
        obtain ⟨d, hd, rfl⟩ := Option.map_eq_some_iff.mp hs₁
        exact .goesOn hd rfl ⟨w, ht⟩
      · rename_i hc
        obtain rfl := Option.some.inj hs
        obtain ⟨-, hmutex⟩ := h.waits_of_wants ht hm (by simpa using hc)
        cases p with
        | turn => exact .locks rfl ⟨_, Function.update_self ..⟩
        | inC | leaving => cases hmutex
    · cases hs
  | run u env =>
    obtain rfl := Option.some.inj ho
    simp only [Nodes.step] at hs
    split at hs
    · rename_i th hth hm
      obtain rfl : th = ⟨.send i bundle addr port p, w⟩ := Option.some.inj (hth.symm.trans ht)
      simp only [next] at hs
      cases p with
      | turn =>
        simp only [nextSend] at hs
        split at hs
        · rename_i hcancel
          obtain rfl := Option.some.inj hs
          exact .cancelled rfl hcancel rfl inSend_goto
        · rename_i hcancel
          obtain ⟨s₁, hs₁, rfl⟩ := Option.map_eq_some_iff.mp hs
          obtain ⟨d, hd, rfl⟩ := Option.map_eq_some_iff.mp hs₁
          exact .enters rfl (by simpa using hcancel) hd inSend_goto
      | inC =>
        simp only [nextSend] at hs
        split at hs
        · rename_i hby
          obtain ⟨s₁, hs₁, rfl⟩ := Option.map_eq_some_iff.mp hs
          obtain ⟨d, hd, rfl⟩ := Option.map_eq_some_iff.mp hs₁
          exact .goesOn hd (sendBy_spec hby).1 ⟨w, ht⟩
        · cases hs
      | leaving =>
        obtain rfl := Option.some.inj hs
        exact .leaves rfl
    · cases hs

end Nodes

end Cspcl
