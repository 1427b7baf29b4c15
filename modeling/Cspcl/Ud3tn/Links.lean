import Mathlib.Logic.Function.Basic
import Cspcl.Lib.CString
import Cspcl.Lib.Lts
import Cspcl.Lib.Sem

/-!
# The semaphores of the uD3TN links

The tasks of `ud3tn-integration/src/cla_csp.c` that share the table of links: a management task for
each link (`csp_link_management_task`), the RX task (`csp_rx_task`), and callers of
`csp_cla_get_tx_queue`, `csp_cla_start_scheduled_contact` and `csp_cla_end_scheduled_contact`.
They are modelled down to each take and release of `param_htab_sem` (`Sem.htab`) and of a link's
`param_semphr` (`Sem.param`); what they read and write under the semaphores is left out, except
for the table. A link's parameters are named by a number.

* `linkSys`: any interleaving, with links whose initialization fails or that terminate.
* `holds`, `waits`: which semaphores a task has taken, and which one it waits for.
-/

namespace Cspcl.Ud3tn

/-- A semaphore that the tasks share. -/
inductive SemId where
  /-- `param_htab_sem`. -/
  | htab
  /-- `param_semphr` of a link. -/
  | param (id : Nat)
  deriving DecidableEq, Repr

/-- Where `csp_link_management_task` is. `holdsParam`: it took `param_semphr` after its link
terminated. -/
inductive MgmtPc where
  | absent
  /-- At `csp_link_init`. `param_semphr` was created unavailable. -/
  | init
  /-- At `cla_link_wait`. -/
  | linkWait
  /-- The link terminated: at the take of `param_htab_sem`. -/
  | lockHtab
  /-- At the take of `param_semphr`, with `param_htab_sem`. -/
  | lockParam
  /-- At `csp_link_cleanup`, with both. -/
  | cleanup
  /-- At the label `cleanup`: the take of `param_htab_sem`. -/
  | lockRemove (holdsParam : Bool)
  /-- At the removal from the table, with `param_htab_sem`. -/
  | remove (holdsParam : Bool)
  /-- At the last take of `param_semphr`. -/
  | lockFree (holdsParam : Bool)
  /-- At the end: the parameters are freed. -/
  | free
  deriving DecidableEq, Repr

/-- Where `csp_rx_task` is. -/
inductive RxTaskPc where
  | receiving
  /-- It has a bundle for the link with this key: at the take of `param_htab_sem`. -/
  | lockHtab (key : CString)
  /-- At the lookup, with `param_htab_sem`. -/
  | lookup (key : CString)
  /-- At the release of `param_htab_sem`, with the link it found or created. -/
  | unlockHtab (param : Option Nat)
  /-- At the take of `param_semphr`. -/
  | lockParam (id : Nat)
  /-- At the copy of the bundle, with `param_semphr`. -/
  | store (id : Nat)
  deriving DecidableEq, Repr

/-- The functions of the CLA that take a link's semaphore under that of the table. -/
inductive ClaCall where
  | getTxQueue
  | startScheduledContact
  | endScheduledContact
  deriving DecidableEq, Repr

/-- Where a caller of such a function is. -/
inductive CallPc where
  | idle
  | lockHtab (call : ClaCall) (key : CString)
  | lookup (call : ClaCall) (key : CString)
  /-- It found the link: at the take of `param_semphr`, with `param_htab_sem`. -/
  | lockParam (id : Nat)
  /-- With both semaphores. -/
  | inParam (id : Nat)
  /-- At the release of `param_htab_sem`. -/
  | unlockHtab
  deriving DecidableEq, Repr

/-- The semaphores (whether they are available), the table of links, and the tasks. -/
structure LinkWorld where
  avail : SemId → Bool
  table : CString → Option Nat
  key : Nat → CString
  /-- The number of links that were launched so far, and the name of the next one. -/
  launched : Nat
  mgmt : Nat → MgmtPc
  rx : RxTaskPc
  call : Nat → CallPc

/-- What happens next. -/
inductive LinkOp where
  | initOk (id : Nat)
  | initFailed (id : Nat)
  | terminated (id : Nat)
  /-- The management task makes its next step with the semaphores. -/
  | mgmt (id : Nat)
  /-- `cspcl_recv_bundle` returns a bundle for the link with this key. -/
  | received (key : CString)
  /-- The RX task makes its next step; `launch`: a link that it creates is launched. -/
  | rx (launch : Bool)
  | call (t : Nat) (call : ClaCall) (key : CString)
  /-- The caller `t` makes its next step. -/
  | caller (t : Nat) (launch : Bool)

namespace LinkWorld

/-- The CLA after `csp_cla_init`: the table's semaphore was released, there are no links. -/
def new : LinkWorld where
  avail _ := true
  table _ := none
  key _ := []
  launched := 0
  mgmt _ := .absent
  rx := .receiving
  call _ := .idle

def setAvail (w : LinkWorld) (x : SemId) (b : Bool) : LinkWorld :=
  { w with avail := Function.update w.avail x b }

def setMgmt (w : LinkWorld) (id : Nat) (pc : MgmtPc) : LinkWorld :=
  { w with mgmt := Function.update w.mgmt id pc }

def setCall (w : LinkWorld) (t : Nat) (pc : CallPc) : LinkWorld :=
  { w with call := Function.update w.call t pc }

/-- `hal_semaphore_take_blocking`, once the semaphore is available. -/
def take (w : LinkWorld) (x : SemId) : Option LinkWorld :=
  if w.avail x then some (w.setAvail x false) else none

/-- `hal_semaphore_release`. -/
def release (w : LinkWorld) (x : SemId) : LinkWorld := w.setAvail x true

/-- `launch_connection_management`: the link's semaphore is created unavailable, its management
task starts. -/
def launch (w : LinkWorld) (key : CString) : LinkWorld :=
  { w with
    avail := Function.update w.avail (.param w.launched) false
    table := Function.update w.table key (some w.launched)
    key := Function.update w.key w.launched key
    launched := w.launched + 1
    mgmt := Function.update w.mgmt w.launched .init }

/-- The next step of `csp_link_management_task` with the semaphores. -/
def mgmtStep (w : LinkWorld) (id : Nat) : Option LinkWorld :=
  match w.mgmt id with
  | .lockHtab => (w.setMgmt id .lockParam).take .htab
  | .lockParam => (w.setMgmt id .cleanup).take (.param id)
  | .cleanup => some ((w.setMgmt id (.lockRemove true)).release .htab)
  | .lockRemove holdsParam => (w.setMgmt id (.remove holdsParam)).take .htab
  | .remove holdsParam =>
    let table := if w.table (w.key id) = some id then Function.update w.table (w.key id) none
      else w.table
    some ({ w with table }.setMgmt id (.lockFree holdsParam) |>.release .htab)
  | .lockFree _ => (w.setMgmt id .free).take (.param id)
  | .absent | .init | .linkWait | .free => none

/-- The next step of `csp_rx_task` after a bundle was received. -/
def rxStep (w : LinkWorld) (launch : Bool) : Option LinkWorld :=
  match w.rx with
  | .receiving => none
  | .lockHtab key => { w with rx := .lookup key }.take .htab
  | .lookup key =>
    match w.table key with
    | some id => some { w with rx := .unlockHtab (some id) }
    | none =>
      if launch then some { w.launch key with rx := .unlockHtab (some w.launched) }
      else some { w with rx := .unlockHtab none }
  | .unlockHtab (some id) => some ({ w with rx := .lockParam id }.release .htab)
  | .unlockHtab none => some ({ w with rx := .receiving }.release .htab)
  | .lockParam id => { w with rx := .store id }.take (.param id)
  | .store id => some ({ w with rx := .receiving }.release (.param id))

/-- The next step of the caller `t`. -/
def callStep (w : LinkWorld) (t : Nat) (launch : Bool) : Option LinkWorld :=
  match w.call t with
  | .idle => none
  | .lockHtab call key => (w.setCall t (.lookup call key)).take .htab
  | .lookup call key =>
    match w.table key, call with
    | some id, _ => some (w.setCall t (.lockParam id))
    | none, .startScheduledContact =>
      some ((if launch then w.launch key else w).setCall t .unlockHtab)
    | none, _ => some (w.setCall t .unlockHtab)
  | .lockParam id => (w.setCall t (.inParam id)).take (.param id)
  | .inParam id => some ((w.setCall t .unlockHtab).release (.param id))
  | .unlockHtab => some ((w.setCall t .idle).release .htab)

def step (w : LinkWorld) : LinkOp → Option LinkWorld
  | .initOk id =>
    if w.mgmt id = .init then some ((w.setMgmt id .linkWait).release (.param id)) else none
  | .initFailed id =>
    if w.mgmt id = .init then some (w.setMgmt id (.lockRemove false)) else none
  | .terminated id => if w.mgmt id = .linkWait then some (w.setMgmt id .lockHtab) else none
  | .mgmt id => w.mgmtStep id
  | .received key => if w.rx = .receiving then some { w with rx := .lockHtab key } else none
  | .rx launch => w.rxStep launch
  | .call t call key => if w.call t = .idle then some (w.setCall t (.lockHtab call key)) else none
  | .caller t launch => w.callStep t launch

end LinkWorld

/-- All interleavings, from a CLA without links. -/
def linkSys : Lts LinkWorld LinkOp where
  init w := w = .new
  step := LinkWorld.step

/-- A task that uses the semaphores. -/
inductive Task where
  | mgmt (id : Nat)
  | rx
  | caller (t : Nat)
  deriving DecidableEq, Repr

/-- The semaphores that the management task of the link `id` has taken and not released. -/
def MgmtPc.holds (pc : MgmtPc) (id : Nat) : SemId → Bool
  | .htab =>
    match pc with
    | .lockParam | .cleanup | .remove _ => true
    | _ => false
  | .param i => i = id &&
    match pc with
    | .cleanup | .lockRemove true | .remove true | .lockFree true | .free => true
    | _ => false

/-- The semaphore that it waits for. -/
def MgmtPc.waits (pc : MgmtPc) (id : Nat) : Option SemId :=
  match pc with
  | .lockHtab | .lockRemove _ => some .htab
  | .lockParam | .lockFree _ => some (.param id)
  | _ => none

def RxTaskPc.holds (pc : RxTaskPc) : SemId → Bool
  | .htab =>
    match pc with
    | .lookup _ | .unlockHtab _ => true
    | _ => false
  | .param i => pc = .store i

def RxTaskPc.waits : RxTaskPc → Option SemId
  | .lockHtab _ => some .htab
  | .lockParam id => some (.param id)
  | _ => none

def CallPc.holds (pc : CallPc) : SemId → Bool
  | .htab =>
    match pc with
    | .lookup _ _ | .lockParam _ | .inParam _ | .unlockHtab => true
    | _ => false
  | .param i => pc = .inParam i

def CallPc.waits : CallPc → Option SemId
  | .lockHtab _ _ => some .htab
  | .lockParam id => some (.param id)
  | _ => none

namespace LinkWorld

/-- The semaphore was taken by the task and not released. -/
def holds (w : LinkWorld) : Task → SemId → Bool
  | .mgmt id => (w.mgmt id).holds id
  | .rx => w.rx.holds
  | .caller t => (w.call t).holds

/-- The semaphore that the task waits for. -/
def waits (w : LinkWorld) : Task → Option SemId
  | .mgmt id => (w.mgmt id).waits id
  | .rx => w.rx.waits
  | .caller t => (w.call t).waits

/-- The link failed to initialize, or has terminated. -/
def ended (w : LinkWorld) (id : Nat) : Bool :=
  match w.mgmt id with
  | .absent | .init | .linkWait => false
  | _ => true

/-- A state with `P` can be reached from here. -/
def CanReach (w : LinkWorld) (P : LinkWorld → Prop) : Prop := ∃ ops w', linkSys.Run w ops w' ∧ P w'

/-- The teardown of links does not deadlock. -/
structure TeardownSafe (w : LinkWorld) : Prop where
  /-- No management task waits for a semaphore that it holds itself. -/
  no_self_wait : ∀ id x, w.waits (.mgmt id) = some x → w.holds (.mgmt id) x = false
  /-- A semaphore that a management task waits for can become available. -/
  released : ∀ id x, w.waits (.mgmt id) = some x → w.CanReach fun w' => w'.avail x = true
  /-- No two tasks each hold one of the semaphores and wait for the other. -/
  no_cross : ∀ a b id, ¬ (w.holds a .htab = true ∧ w.waits a = some (.param id) ∧
    w.holds b (.param id) = true ∧ w.waits b = some .htab)
  /-- The management task of a link that has ended can get to freeing its parameters. -/
  frees : ∀ id, w.ended id = true → w.CanReach fun w' => w'.mgmt id = .free
  /-- The RX task can go on receiving. -/
  receives : w.CanReach fun w' => w'.rx = .receiving

end LinkWorld

end Cspcl.Ud3tn
