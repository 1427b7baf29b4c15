import Mathlib.Logic.Function.Basic
import Cspcl.Lib.Buffer
import Cspcl.Lib.CString
import Cspcl.Lib.Lts
import Cspcl.Config

/-!
# The receive buffers of the uD3TN links

`csp_rx_task` and `csp_cla_read` of `ud3tn-integration/src/cla_csp.c`: the bundles that
`cspcl_recv_bundle` returns are appended to the buffer of their link, from which uD3TN reads.

* `LinkRx`: the receive side of `struct csp_link`, with its bounds; `store` and `read`.
* `rxSys`: any interleaving of the task's iterations with the reads on the links.
* `Intact`: no byte was lost. `rx_intact_iff`: it holds after a run iff each bundle found room for
  itself in its link's buffer (`Fits`); one that does not is dropped without a trace.
-/

namespace Cspcl.Ud3tn

/-- `create_cla_addr`: the key of the link to a node and port. -/
def createClaAddr (cspAddr cspPort : UInt8) : CString :=
  CString.decimal cspAddr.toNat ++ [44] ++ CString.decimal cspPort.toNat

/-- The receive side of `struct csp_link`. -/
structure LinkRx where
  rxBuffer : Buffer UInt8
  rxBufferLen : Nat
  rxBufferPos : Nat
  pos_le : rxBufferPos ≤ rxBufferLen
  len_le : rxBufferLen ≤ rxBufferSize

namespace LinkRx

/-- The buffer as `csp_link_init` allocates it. -/
def init (data : Buffer UInt8) : LinkRx := ⟨data, 0, 0, Nat.le_refl _, Nat.zero_le _⟩

/-- The copy of a bundle at the end of an iteration of `csp_rx_task`. -/
def store (l : LinkRx) (bundle : List UInt8) : LinkRx :=
  if h : bundle.length ≤ rxBufferSize - l.rxBufferLen then
    { rxBuffer := l.rxBuffer.write l.rxBufferLen bundle
      rxBufferLen := l.rxBufferLen + bundle.length
      rxBufferPos := l.rxBufferPos
      pos_le := Nat.le_add_right_of_le l.pos_le
      len_le := Nat.add_le_of_le_sub' l.len_le h }
  else l

/-- The end of `csp_cla_read`: `n` bytes were read, and a buffer fully consumed is reset. -/
def skip (l : LinkRx) (n : Nat) : LinkRx :=
  if h : l.rxBufferPos + n ≥ l.rxBufferLen then
    { l with rxBufferLen := 0, rxBufferPos := 0, pos_le := Nat.le_refl _, len_le := Nat.zero_le _ }
  else { l with rxBufferPos := l.rxBufferPos + n, pos_le := Nat.le_of_lt (Nat.lt_of_not_le h) }

/-- `csp_cla_read` of up to `length` bytes. -/
def read (l : LinkRx) (length : Nat) : List UInt8 × LinkRx :=
  if l.rxBufferPos ≥ l.rxBufferLen then ([], l)
  else
    let available := l.rxBufferLen - l.rxBufferPos
    let toRead := if length < available then length else available
    (l.rxBuffer.read l.rxBufferPos toRead, l.skip toRead)

/-- The bytes that were stored and not read. -/
def unread (l : LinkRx) : List UInt8 :=
  l.rxBuffer.read l.rxBufferPos (l.rxBufferLen - l.rxBufferPos)

variable {l : LinkRx} {bundle : List UInt8} {length : Nat}

theorem unread_init {data : Buffer UInt8} : (init data).unread = [] := rfl

theorem unread_store (h : bundle.length ≤ rxBufferSize - l.rxBufferLen) :
    (l.store bundle).unread = l.unread ++ bundle := by
  have hpos := l.pos_le
  have hlen : l.rxBufferPos + (l.rxBufferLen - l.rxBufferPos) = l.rxBufferLen := by omega
  have hadd : l.rxBufferLen + bundle.length - l.rxBufferPos =
      l.rxBufferLen - l.rxBufferPos + bundle.length := by omega
  have hread := Buffer.read_write_append l.rxBuffer l.rxBufferPos (l.rxBufferLen - l.rxBufferPos)
    bundle
  rw [hlen] at hread
  simpa only [store, h, dif_pos, unread, hadd] using hread

theorem store_of_full (h : ¬ bundle.length ≤ rxBufferSize - l.rxBufferLen) :
    l.store bundle = l := by
  simp [store, h]

theorem read_append_skip {n : Nat} (hn : n ≤ l.rxBufferLen - l.rxBufferPos) :
    l.rxBuffer.read l.rxBufferPos n ++ (l.skip n).unread = l.unread := by
  have hpos := l.pos_le
  have hall : l.rxBuffer.read l.rxBufferPos n ++
      l.rxBuffer.read (l.rxBufferPos + n) (l.rxBufferLen - (l.rxBufferPos + n)) = l.unread := by
    rw [← Buffer.read_append, unread]
    congr 1
    omega
  by_cases hend : l.rxBufferPos + n ≥ l.rxBufferLen
  · rw [Nat.sub_eq_zero_of_le hend, Buffer.read_zero] at hall
    rw [skip, dif_pos hend, ← hall]
    rfl
  · rw [skip, dif_neg hend, ← hall]
    rfl

/-- A read takes its bytes from the front of the unread ones. -/
theorem read_append_unread (l : LinkRx) (length : Nat) :
    (l.read length).1 ++ (l.read length).2.unread = l.unread := by
  unfold read
  split
  · simp
  · exact read_append_skip (by split <;> omega)

end LinkRx

/-- The state of a link behind its key. -/
inductive LinkState where
  /-- Its management task was launched and has not initialized it. -/
  | starting
  | up (l : LinkRx)

/-- Where `csp_rx_task` is. -/
inductive RxPc where
  | receiving
  /-- It has a bundle for the link with this key. -/
  | received (key : CString) (bundle : List UInt8)
  /-- It has looked the link up, or created it. -/
  | located (key : CString) (bundle : List UInt8)

/-- The table of links and the task, with the bytes that were received for each link and those that
`csp_cla_read` has returned on it. -/
structure RxWorld where
  links : CString → Option LinkState
  rx : RxPc
  received : CString → List UInt8
  returned : CString → List UInt8

/-- A step of `csp_rx_task`, of a link's management task, or of a user of the CLA. -/
inductive RxOp where
  /-- `cspcl_recv_bundle` returns a bundle. -/
  | recv (srcAddr srcPort : UInt8) (bundle : List UInt8)
  /-- The section with `param_htab_sem`. -/
  | locate
  /-- The section with `param_semphr`. -/
  | store
  /-- `csp_link_init`, with what the new buffer holds. -/
  | linkInit (key : CString) (data : Buffer UInt8)
  /-- `csp_cla_start_scheduled_contact`, as far as it creates links. -/
  | startContact (destAddr destPort : UInt8)
  /-- `csp_cla_read`. -/
  | read (key : CString) (length : Nat)

namespace RxWorld

def new : RxWorld := ⟨fun _ => none, .receiving, fun _ => [], fun _ => []⟩

/-- `launch_connection_management`, unless the link exists. -/
def launch (s : RxWorld) (key : CString) : RxWorld :=
  { s with links := Function.update s.links key ((s.links key).or (some .starting)) }

def step (s : RxWorld) : RxOp → Option RxWorld
  | .recv srcAddr srcPort bundle =>
    match s.rx with
    | .receiving =>
      if bundle.length ≤ maxBundleSize then
        let key := createClaAddr srcAddr srcPort
        some { s with rx := .received key bundle
                      received := Function.update s.received key (s.received key ++ bundle) }
      else none
    | _ => none
  | .locate =>
    match s.rx with
    | .received key bundle => some { s.launch key with rx := .located key bundle }
    | _ => none
  | .store =>
    match s.rx with
    | .located key bundle =>
      match s.links key with
      | some (.up l) =>
        some { s with rx := .receiving
                      links := Function.update s.links key (some (.up (l.store bundle))) }
      -- `param_semphr` is not available before the link is initialized.
      | _ => none
    | _ => none
  | .linkInit key data =>
    match s.links key with
    | some .starting =>
      some { s with links := Function.update s.links key (some (.up (.init data))) }
    | _ => none
  | .startContact destAddr destPort => some (s.launch (createClaAddr destAddr destPort))
  | .read key length =>
    match s.links key with
    | some (.up l) =>
      let (bytes, l) := l.read length
      some { s with links := Function.update s.links key (some (.up l))
                    returned := Function.update s.returned key (s.returned key ++ bytes) }
    | _ => none

/-- The bytes in a link's buffer. -/
def unread (s : RxWorld) (key : CString) : List UInt8 :=
  match s.links key with
  | some (.up l) => l.unread
  | _ => []

/-- The bytes that the task has received for a link in its present iteration. -/
def inHand (s : RxWorld) (key : CString) : List UInt8 :=
  match s.rx with
  | .receiving => []
  | .received k bundle | .located k bundle => if k = key then bundle else []

/-- The bytes received for a link that were returned or will be. -/
def kept (s : RxWorld) (key : CString) : List UInt8 :=
  s.returned key ++ s.unread key ++ s.inHand key

/-- No byte was dropped, cut or repeated: what was returned on a link, what its buffer holds and
what the task is about to store there are the bundles received for it, in order. -/
def Intact (s : RxWorld) : Prop := ∀ key, s.kept key = s.received key

/-- A bundle that is about to be stored fits behind those in its link's buffer. -/
def Fits (s : RxWorld) : RxOp → Prop
  | .store =>
    match s.rx with
    | .located key bundle =>
      match s.links key with
      | some (.up l) => bundle.length ≤ rxBufferSize - l.rxBufferLen
      | _ => True
    | _ => True
  | _ => True

instance (s : RxWorld) (op : RxOp) : Decidable (s.Fits op) := by
  unfold Fits
  repeat' split
  all_goals infer_instance

end RxWorld

/-- All interleavings, from a CLA without links. -/
def rxSys : Lts RxWorld RxOp where
  init s := s = .new
  step := RxWorld.step

namespace RxWorld

variable {s s' t : RxWorld} {op : RxOp} {ops : List RxOp} {key k : CString} {bundle : List UInt8}

/-- Creating a link changes no bytes. -/
theorem unread_launch : (s.launch k).unread key = s.unread key := by
  by_cases hk : key = k
  · subst hk
    cases hl : s.links key <;> simp [unread, launch, hl]
  · simp [unread, launch, hk]

/-- What a step with a bundle that fits does: for each link, the same bytes are received and
kept. -/
theorem step_fits (hs : s.step op = some s') (hf : s.Fits op) (key : CString) :
    ∃ l, s'.kept key = s.kept key ++ l ∧ s'.received key = s.received key ++ l := by
  cases op with
  | recv srcAddr srcPort bundle =>
    simp only [step] at hs
    split at hs
    · rename_i hrx
      split at hs
      · simp only [Option.some.injEq] at hs
        subst hs
        by_cases hk : createClaAddr srcAddr srcPort = key
        · refine ⟨bundle, ?_, by simp [← hk]⟩
          simp [kept, unread, inHand, hrx, hk]
        · refine ⟨[], ?_, by simp [Ne.symm hk]⟩
          simp [kept, unread, inHand, hrx, hk]
      · cases hs
    · cases hs
  | locate =>
    simp only [step] at hs
    split at hs
    · rename_i k bundle hrx
      simp only [Option.some.injEq] at hs
      subst hs
      refine ⟨[], ?_, by simp [launch]⟩
      have hu : (s.launch k).unread key = s.unread key := unread_launch
      simpa [kept, inHand, hrx, launch, unread] using hu
    · cases hs
  | store =>
    simp only [step] at hs
    split at hs
    · rename_i k bundle hrx
      split at hs
      · rename_i l hl
        simp only [Option.some.injEq] at hs
        subst hs
        have hfit : bundle.length ≤ rxBufferSize - l.rxBufferLen := by
          simpa [Fits, hrx, hl] using hf
        refine ⟨[], ?_, by simp⟩
        by_cases hk : k = key
        · subst hk
          simp [kept, inHand, hrx, unread, hl, LinkRx.unread_store hfit]
        · simp [kept, inHand, hrx, hk, unread, Ne.symm hk]
      · cases hs
    · cases hs
  | linkInit k data =>
    simp only [step] at hs
    split at hs
    · rename_i hl
      simp only [Option.some.injEq] at hs
      subst hs
      refine ⟨[], ?_, by simp⟩
      by_cases hk : key = k
      · subst hk
        simp [kept, unread, hl, inHand, LinkRx.unread_init]
      · simp [kept, unread, hk, inHand]
    · cases hs
  | startContact destAddr destPort =>
    simp only [step, Option.some.injEq] at hs
    subst hs
    refine ⟨[], ?_, by simp [launch]⟩
    simp [kept, unread_launch]
    simp [launch, inHand]
  | read k length =>
    simp only [step] at hs
    split at hs
    · rename_i l hl
      simp only [Option.some.injEq] at hs
      subst hs
      refine ⟨[], ?_, by simp⟩
      by_cases hk : key = k
      · subst hk
        have hall := LinkRx.read_append_unread l length
        simp only [kept, unread, hl, inHand, Function.update_self, List.append_nil]
        rw [← hall]
        simp
      · simp [kept, unread, hk, inHand]
    · cases hs

/-- A bundle that does not fit is dropped, although it was received. -/
theorem step_not_fits (hs : s.step op = some s') (hf : ¬ s.Fits op) :
    s'.received = s.received ∧ ∃ k b, b ≠ [] ∧ s.kept k = s'.kept k ++ b ∧
      ∀ key, key ≠ k → s'.kept key = s.kept key := by
  cases op with
  | store =>
    simp only [step] at hs
    split at hs
    · rename_i k bundle hrx
      split at hs
      · rename_i l hl
        simp only [Option.some.injEq] at hs
        subst hs
        have hfull : ¬ bundle.length ≤ rxBufferSize - l.rxBufferLen := by
          simpa [Fits, hrx, hl] using hf
        refine ⟨rfl, k, bundle, ?_, ?_, fun key hk => ?_⟩
        · rintro rfl
          exact hfull (Nat.zero_le _)
        · simp [kept, inHand, hrx, unread, hl, LinkRx.store_of_full hfull]
        · simp [kept, inHand, hrx, hk, Ne.symm hk, unread]
      · cases hs
    · cases hs
  | recv | locate | linkInit | startContact | read => exact absurd trivial hf

/-- Some byte that was received for a link is not kept. -/
def Lost (s : RxWorld) : Prop := ∃ key, (s.kept key).length < (s.received key).length

theorem step_le (hs : s.step op = some s')
    (h : ∀ key, (s.kept key).length ≤ (s.received key).length) :
    ∀ key, (s'.kept key).length ≤ (s'.received key).length := by
  intro key
  by_cases hf : s.Fits op
  · obtain ⟨l, hk, hr⟩ := step_fits hs hf key
    rw [hk, hr, List.length_append, List.length_append]
    exact Nat.add_le_add_right (h key) _
  · obtain ⟨hr, k, b, -, hb, hne⟩ := step_not_fits hs hf
    rw [hr]
    by_cases hkk : key = k
    · subst hkk
      have := h key
      rw [hb, List.length_append] at this
      omega
    · rw [hne key hkk]
      exact h key

theorem kept_inductive :
    rxSys.Inductive fun s => ∀ key, (s.kept key).length ≤ (s.received key).length where
  init s hs := by
    obtain rfl := hs
    exact fun _ => Nat.le_refl _
  step _ _ _ h hs := step_le hs h

theorem lost_of_not_fits (hs : s.step op = some s') (hf : ¬ s.Fits op)
    (h : ∀ key, (s.kept key).length ≤ (s.received key).length) : s'.Lost := by
  obtain ⟨hr, k, b, hb, hk, -⟩ := step_not_fits hs hf
  refine ⟨k, ?_⟩
  have hle := h k
  have hpos := List.length_pos_iff.mpr hb
  rw [hk, List.length_append] at hle
  rw [hr]
  omega

theorem Intact.not_lost (h : s.Intact) : ¬ s.Lost := by
  rintro ⟨key, hlt⟩
  rw [h key] at hlt
  exact Nat.lt_irrefl _ hlt

/-- A step keeps a state without losses exactly if a bundle that it stores fits. -/
theorem intact_step (hs : s.step op = some s')
    (h : ∀ key, (s.kept key).length ≤ (s.received key).length) :
    s'.Intact ↔ s.Intact ∧ s.Fits op := by
  by_cases hf : s.Fits op
  · have hkey : ∀ key, s'.kept key = s'.received key ↔ s.kept key = s.received key := by
      intro key
      obtain ⟨l, hk, hr⟩ := step_fits hs hf key
      rw [hk, hr]
      exact List.append_left_inj l
    exact ⟨fun hi => ⟨fun key => (hkey key).mp (hi key), hf⟩,
      fun hi key => (hkey key).mpr (hi.1 key)⟩
  · exact ⟨fun hi => absurd (lost_of_not_fits hs hf h) hi.not_lost, fun hi => absurd hi.2 hf⟩

end RxWorld

/-- After any run, no acknowledged byte was lost iff each bundle of the run fitted behind those in
its link's buffer when `csp_rx_task` stored it. -/
theorem rx_intact_iff {s : RxWorld} {ops : List RxOp} (hr : rxSys.Run .new ops s) :
    s.Intact ↔ (rxSys.guard RxWorld.Fits).Run .new ops s :=
  RxWorld.kept_inductive.run_guard_iff (fun _ _ _ h hs => RxWorld.intact_step hs h) hr
    (fun _ => Nat.le_refl _) fun _ => rfl

/-- Two bundles from the same node, the first one read in part before the second one arrives. -/
def twoBundlesRun : List RxOp :=
  [.recv 5 20 [1, 2, 3], .locate, .linkInit (createClaAddr 5 20) (fun _ => 0), .store,
    .read (createClaAddr 5 20) 2, .recv 5 20 [4], .locate, .store]

theorem rx_intact_iff_two_bundles : ∃ s, rxSys.exec .new twoBundlesRun = some s ∧
    s.returned (createClaAddr 5 20) = [1, 2] ∧ s.unread (createClaAddr 5 20) = [3, 4] ∧
      (s.Intact ↔ (rxSys.guard RxWorld.Fits).Run .new twoBundlesRun s) := by
  obtain ⟨s, hs⟩ : ∃ s, rxSys.exec .new twoBundlesRun = some s := ⟨_, rfl⟩
  have hbytes : (rxSys.exec .new twoBundlesRun).map (fun s => (s.returned (createClaAddr 5 20),
      s.unread (createClaAddr 5 20))) = some ([1, 2], [3, 4]) := by decide
  simp only [hs, Option.map_some, Option.some.injEq, Prod.mk.injEq] at hbytes
  exact ⟨s, hs, hbytes.1, hbytes.2, rx_intact_iff (Lts.run_iff_exec.mpr hs)⟩

/-- Two bundles from the same node and no read in between. -/
def unreadRun (b b' : List UInt8) : List RxOp :=
  [.recv 5 20 b, .locate, .linkInit (createClaAddr 5 20) (fun _ => 0), .store,
    .recv 5 20 b', .locate, .store]

theorem exec_unreadRun (b b' : List UInt8) (hb : b.length ≤ maxBundleSize)
    (hb' : b'.length ≤ maxBundleSize) : ∃ s l, rxSys.exec .new (unreadRun b b') = some s ∧
      s.rx = .receiving ∧ s.links (createClaAddr 5 20) = some (.up l) ∧
      s.returned (createClaAddr 5 20) = [] ∧ s.received (createClaAddr 5 20) = b ++ b' := by
  simp [unreadRun, Lts.exec, rxSys, RxWorld.step, RxWorld.new, RxWorld.launch, hb, hb']

/-- Two bundles of 40000 bytes: the second one is dropped. -/
theorem rx_second_bundle_dropped :
    ∃ s, rxSys.exec .new (unreadRun (List.replicate 40000 1) (List.replicate 40000 2)) = some s ∧
      ¬ s.Intact := by
  obtain ⟨s, l, hs, hrx, hl, hret, hrec⟩ := exec_unreadRun (List.replicate 40000 1)
    (List.replicate 40000 2) (by rw [List.length_replicate]; decide)
    (by rw [List.length_replicate]; decide)
  refine ⟨s, hs, fun hi => ?_⟩
  have hlen := congrArg List.length (hi (createClaAddr 5 20))
  have hle := l.len_le
  simp only [RxWorld.kept, hret, RxWorld.unread, hl, LinkRx.unread, RxWorld.inHand, hrx, hrec,
    List.append_nil, List.nil_append, Buffer.length_read, List.length_append,
    List.length_replicate, rxBufferSize] at hlen hle
  omega

end Cspcl.Ud3tn
