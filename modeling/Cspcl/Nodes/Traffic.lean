import Cspcl.Lib.Custody
import Cspcl.Lib.Lts
import Cspcl.Inbound.Sections
import Cspcl.Pool.Basic

/-!
# Connections and bundles on the receiving side, abstractly

What the accept threads, the listeners and the streams of all instances are for: a thread gets a
connection, hands it on or closes it; a listener receives bundles on its connection and delivers
them to the receiver of its instance; streams yield them. No mutex, table or socket is here.

A receipt is a bundle that a listener received. The receivers move the numbers of receipts.

* `trafficSys`: any interleaving.
* `TrafficInv`: each accepted connection has one owner or was closed, once; each receipt is in
  exactly one place, of the instance that received it.
-/

namespace Cspcl

open Inbound (Receiver LockSection)

/-- A bundle that a listener of instance `inst` received on the connection `conn`. -/
structure Receipt where
  inst : Nat
  conn : Conn
  bundle : Inbound.Bundle
  deriving DecidableEq

/-- Who has which connection, and where the receipts are. `conn t`: the connection of thread `t`,
with its instance; `hand t`: the receipt that it is about to deliver; `accepted`: the connections,
with the instance that accepted them; `lost`: what threads had in hand when they panicked. -/
structure Traffic where
  conn : Nat → Option (Nat × Conn)
  accepted : List (Nat × Conn)
  closed : List Conn
  hand : Nat → Option Nat
  receipts : List Receipt
  recv : Nat → Receiver Nat
  returned : Nat → Nat → List Nat
  lost : List Nat

inductive TrafficOp where
  | accept (t i : Nat) (c : Conn)
  /-- Thread `t` gives its connection to thread `r`. -/
  | pass (t r : Nat)
  | close (t : Nat)
  | receive (t : Nat) (b : Inbound.Bundle)
  | deliver (t : Nat)
  | lose (t : Nat)
  /-- A lock section of the receiver that delivers no bundle. -/
  | run (i : Nat) (x : LockSection Nat)
  | poll (i id : Nat)

namespace Traffic

def new (now : Nat → Nat) : Traffic where
  conn _ := none
  accepted := []
  closed := []
  hand _ := none
  receipts := []
  recv i := .new (now i)
  returned _ _ := []
  lost := []

def setRecv (a : Traffic) (i : Nat) (r : Receiver Nat) : Traffic :=
  { a with recv := Function.update a.recv i r }

/-- The stream of instance `i` yields the item. -/
def yield (a : Traffic) (i id : Nat) : Poll (Inbound.Item Nat) → Traffic
  | .ready (.ok n) =>
    { a with
      returned := Function.update a.returned i
        (Function.update (a.returned i) id (a.returned i id ++ [n])) }
  | _ => a

def step (a : Traffic) : TrafficOp → Option Traffic
  | .accept t i c =>
    if a.conn t = none ∧ a.hand t = none ∧ c ∉ a.accepted.map Prod.snd then
      some { a with
        conn := Function.update a.conn t (some (i, c))
        accepted := a.accepted ++ [(i, c)] }
    else none
  | .pass t r =>
    match a.conn t with
    | some x =>
      if a.conn r = none ∧ a.hand t = none ∧ a.hand r = none then
        some { a with conn := Function.update (Function.update a.conn r (some x)) t none }
      else none
    | none => none
  | .close t =>
    match a.conn t, a.hand t with
    | some (_, c), none =>
      some { a with conn := Function.update a.conn t none, closed := a.closed ++ [c] }
    | _, _ => none
  | .receive t b =>
    match a.conn t, a.hand t with
    | some (i, c), none =>
      some { a with
        hand := Function.update a.hand t (some a.receipts.length)
        receipts := a.receipts ++ [⟨i, c, b⟩] }
    | _, _ => none
  | .deliver t =>
    match a.conn t, a.hand t with
    | some (i, _), some n =>
      some ({ a with hand := Function.update a.hand t none }.setRecv i
        ((a.recv i).deliver (.ok n)))
    | _, _ => none
  | .lose t =>
    match a.hand t with
    | some n => some { a with hand := Function.update a.hand t none, lost := a.lost ++ [n] }
    | none => none
  | .run i x => if x.bundle = none then some (a.setRecv i (x.apply (a.recv i))) else none
  | .poll i id =>
    let (poll, r) := (a.recv i).pollNext id false
    some ((a.setRecv i r).yield i id poll)

end Traffic

/-- Any interleaving of the threads and of those that poll the streams. -/
def trafficSys : Lts Traffic TrafficOp where
  init a := ∃ now, a = .new now
  step := Traffic.step

/-! ## The places -/

/-- Where an accepted connection is. -/
inductive ConnPlace where
  | held (t : Nat)
  | closed
  deriving DecidableEq

/-- Where a receipt is. `stored i none`: pending; `stored i (some id)`: unread in a stream. -/
inductive ReceiptPlace where
  | hand (t : Nat)
  | stored (i : Nat) (o : Option Nat)
  | returned (i id : Nat)
  | lost
  deriving DecidableEq

namespace Traffic

def connAt (a : Traffic) : ConnPlace → List Conn
  | .held t => (a.conn t).toList.map Prod.snd
  | .closed => a.closed

def receiptAt (a : Traffic) : ReceiptPlace → List Nat
  | .hand t => (a.hand t).toList
  | .stored i o => (a.recv i).stored o
  | .returned i id => a.returned i id
  | .lost => a.lost

end Traffic

/-- The instance that a place belongs to, if it belongs to one. -/
def ReceiptPlace.inst : ReceiptPlace → Option Nat
  | .stored i _ | .returned i _ => some i
  | .hand _ | .lost => none

structure TrafficInv (a : Traffic) : Prop where
  conns : Custody a.connAt (a.accepted.map Prod.snd)
  owner : ∀ t x, a.conn t = some x → x ∈ a.accepted
  receipts : Custody a.receiptAt (List.range a.receipts.length)
  /-- A thread has the connection that it received on. -/
  hand : ∀ t n, a.hand t = some n → ∃ r, a.receipts[n]? = some r ∧ a.conn t = some (r.inst, r.conn)
  /-- A receipt stays at the instance that received it. -/
  home : ∀ p i n, p.inst = some i → n ∈ a.receiptAt p → ∃ r, a.receipts[n]? = some r ∧ r.inst = i
  source : ∀ r ∈ a.receipts, (r.inst, r.conn) ∈ a.accepted
  healthy : ∀ i, (a.recv i).Healthy

/-! ## The steps -/

namespace TrafficInv

variable {a a' : Traffic} {t r i id n : Nat} {c : Conn} {b : Inbound.Bundle} {x : Nat × Conn}
  {y : LockSection Nat}

theorem receiptAt_setRecv {q : Receiver Nat} {p : ReceiptPlace} :
    (a.setRecv i q).receiptAt p = match p with
      | .stored j o => if j = i then q.stored o else a.receiptAt (.stored j o)
      | p => a.receiptAt p := by
  cases p with
  | stored j o =>
    simp only [Traffic.receiptAt, Traffic.setRecv, Function.update_apply]
    split <;> rfl
  | _ => rfl

theorem healthy_setRecv {q : Receiver Nat} (h : ∀ i, (a.recv i).Healthy) (hq : q.Healthy) (j : Nat) :
    ((a.setRecv i q).recv j).Healthy := by
  simp only [Traffic.setRecv, Function.update_apply]
  split
  · exact hq
  · exact h j

/-- The places of an instance are its receiver's and its streams'. -/
theorem mem_home {p : ReceiptPlace} (hp : p.inst = some i) (hn : n ∈ a'.receiptAt p)
    (hrecv : a'.recv = a.recv) (hret : a'.returned = a.returned) : n ∈ a.receiptAt p := by
  cases p with
  | stored j o => simpa only [Traffic.receiptAt, hrecv] using hn
  | returned j id => simpa only [Traffic.receiptAt, hret] using hn
  | _ => cases hp

/-- Only the connections move. -/
theorem connect (h : TrafficInv a) (hr : a'.receipts = a.receipts) (hhand : a'.hand = a.hand)
    (hrecv : a'.recv = a.recv) (hret : a'.returned = a.returned) (hlost : a'.lost = a.lost)
    (hconns : Custody a'.connAt (a'.accepted.map Prod.snd))
    (howner : ∀ t x, a'.conn t = some x → x ∈ a'.accepted)
    (hacc : ∀ x ∈ a.accepted, x ∈ a'.accepted)
    (hconn : ∀ t n, a.hand t = some n → a'.conn t = a.conn t) : TrafficInv a' := by
  have hat : a'.receiptAt = a.receiptAt := by
    funext p
    cases p <;> simp only [Traffic.receiptAt, hhand, hrecv, hret, hlost]
  refine ⟨hconns, howner, ?_, fun t n hn => ?_, ?_, fun r hr' => ?_, ?_⟩
  · rw [hat, hr]
    exact h.receipts
  · rw [hhand] at hn
    rw [hr, hconn t n hn]
    exact h.hand t n hn
  · rw [hat, hr]
    exact h.home
  · rw [hr] at hr'
    exact hacc _ (h.source r hr')
  · rw [hrecv]
    exact h.healthy

/-- Only the receipts move. -/
theorem carry (h : TrafficInv a) (hconn : a'.conn = a.conn) (hacc : a'.accepted = a.accepted)
    (hclosed : a'.closed = a.closed) (hr : a'.receipts = a.receipts)
    (hhand : ∀ t n, a'.hand t = some n → a.hand t = some n)
    (hrec : Custody a'.receiptAt (List.range a.receipts.length))
    (hhome : ∀ p i n, p.inst = some i → n ∈ a'.receiptAt p →
      ∃ r, a.receipts[n]? = some r ∧ r.inst = i)
    (hhealthy : ∀ i, (a'.recv i).Healthy) : TrafficInv a' := by
  have hat : a'.connAt = a.connAt := by
    funext p
    cases p <;> simp only [Traffic.connAt, hconn, hclosed]
  refine ⟨?_, ?_, ?_, fun t n hn => ?_, ?_, ?_, hhealthy⟩
  · rw [hat, hacc]
    exact h.conns
  · rw [hconn, hacc]
    exact h.owner
  · rw [hr]
    exact hrec
  · rw [hr, hconn]
    exact h.hand t n (hhand t n hn)
  · rw [hr]
    exact hhome
  · rw [hr, hacc]
    exact h.source

theorem accept (h : TrafficInv a) (hs : a.step (.accept t i c) = some a') : TrafficInv a' := by
  simp only [Traffic.step] at hs
  split at hs
  · rename_i hfree
    obtain ⟨hconn, hhand, hc⟩ := hfree
    obtain rfl := Option.some.inj hs
    refine h.connect rfl rfl rfl rfl rfl ?_ ?_ (fun x hx => List.mem_append_left _ hx) ?_
    · rw [List.map_append]
      refine h.conns.put (p := .held t) hc ?_ fun p hp => ?_
      · simp [Traffic.connAt, hconn]
      · cases p with
        | held u =>
          have hut : u ≠ t := fun h => hp (by rw [h])
          simp only [Traffic.connAt, Function.update_of_ne hut]
        | closed => rfl
    · intro u x hu
      simp only [Function.update_apply] at hu
      split at hu
      · exact List.mem_append_right _ (by simpa using hu.symm)
      · exact List.mem_append_left _ (h.owner u x hu)
    · intro u n hn
      refine Function.update_of_ne ?_ ..
      rintro rfl
      rw [hhand] at hn
      cases hn
  · cases hs

theorem pass (h : TrafficInv a) (hs : a.step (.pass t r) = some a') : TrafficInv a' := by
  simp only [Traffic.step] at hs
  split at hs
  · rename_i x ht
    split at hs
    · rename_i hfree
      obtain ⟨hr, hht, hhr⟩ := hfree
      obtain rfl := Option.some.inj hs
      have hrt : r ≠ t := by
        rintro rfl
        rw [hr] at ht
        cases ht
      refine h.connect rfl rfl rfl rfl rfl ?_ ?_ (fun _ hx => hx) ?_
      · refine h.conns.move (p := .held t) (q := .held r) (l := [x.2]) ?_ ?_ ?_ fun p hp hq => ?_
        · exact fun he => hrt (ConnPlace.held.inj he).symm
        · simp [Traffic.connAt, ht]
        · simp [Traffic.connAt, hr, Function.update_of_ne hrt]
        · cases p with
          | held u =>
            have hut : u ≠ t := fun h => hp (by rw [h])
            have hur : u ≠ r := fun h => hq (by rw [h])
            simp only [Traffic.connAt, Function.update_of_ne hut, Function.update_of_ne hur]
          | closed => rfl
      · intro u y hu
        simp only [Function.update_apply] at hu
        split at hu
        · cases hu
        · split at hu
          · exact Option.some.inj hu ▸ h.owner t x ht
          · exact h.owner u y hu
      · intro u n hn
        have hut : u ≠ t := by
          rintro rfl
          rw [hht] at hn
          cases hn
        have hur : u ≠ r := by
          rintro rfl
          rw [hhr] at hn
          cases hn
        simp only [Function.update_of_ne hut, Function.update_of_ne hur]
    · cases hs
  · cases hs

theorem close (h : TrafficInv a) (hs : a.step (.close t) = some a') : TrafficInv a' := by
  simp only [Traffic.step] at hs
  split at hs
  · rename_i i c ht hht
    obtain rfl := Option.some.inj hs
    refine h.connect rfl rfl rfl rfl rfl ?_ ?_ (fun _ hx => hx) ?_
    · refine h.conns.move (p := .held t) (q := .closed) (l := [c]) nofun ?_ ?_ fun p hp hq => ?_
      · simp [Traffic.connAt, ht]
      · simp [Traffic.connAt]
      · cases p with
        | held u =>
          have hut : u ≠ t := fun h => hp (by rw [h])
          simp only [Traffic.connAt, Function.update_of_ne hut]
        | closed => exact absurd rfl hq
    · intro u y hu
      simp only [Function.update_apply] at hu
      split at hu
      · cases hu
      · exact h.owner u y hu
    · intro u n hn
      refine Function.update_of_ne ?_ ..
      rintro rfl
      rw [hht] at hn
      cases hn
  · cases hs

theorem receive (h : TrafficInv a) (hs : a.step (.receive t b) = some a') : TrafficInv a' := by
  simp only [Traffic.step] at hs
  split at hs
  · rename_i i c ht hht
    obtain rfl := Option.some.inj hs
    have hold : ∀ {m : Nat} {r : Receipt}, a.receipts[m]? = some r →
        (a.receipts ++ [⟨i, c, b⟩])[m]? = some r := by
      intro m r hm
      rw [List.getElem?_append_left (List.getElem?_eq_some_iff.mp hm).1]
      exact hm
    refine ⟨h.conns, h.owner, ?_, fun u n hn => ?_, fun p j n hp hn => ?_, fun r hr => ?_,
      h.healthy⟩
    · rw [List.length_append, List.length_singleton, List.range_succ]
      refine h.receipts.put (p := .hand t) (by simp) ?_ fun p hp => ?_
      · simp [Traffic.receiptAt, hht]
      · cases p with
        | hand u =>
          have hut : u ≠ t := fun h => hp (by rw [h])
          simp only [Traffic.receiptAt, Function.update_of_ne hut]
        | _ => rfl
    · simp only [Function.update_apply] at hn
      split at hn
      · rename_i hut
        obtain rfl := Option.some.inj hn
        exact ⟨_, List.getElem?_concat_length, hut ▸ ht⟩
      · obtain ⟨r, hr, hc⟩ := h.hand u n hn
        exact ⟨r, hold hr, hc⟩
    · obtain ⟨r, hr, hi⟩ := h.home p j n hp (mem_home hp hn rfl rfl)
      exact ⟨r, hold hr, hi⟩
    · rcases List.mem_append.mp hr with hr | hr
      · exact h.source r hr
      · rw [List.mem_singleton.mp hr]
        exact h.owner t _ ht
  · cases hs

theorem lose (h : TrafficInv a) (hs : a.step (.lose t) = some a') : TrafficInv a' := by
  simp only [Traffic.step] at hs
  split at hs
  · rename_i n ht
    obtain rfl := Option.some.inj hs
    refine h.carry rfl rfl rfl rfl (fun u m hm => ?_) ?_ (fun p i m hp hm => ?_) h.healthy
    · simp only [Function.update_apply] at hm
      split at hm
      · cases hm
      · exact hm
    · refine h.receipts.move (p := .hand t) (q := .lost) (l := [n]) nofun ?_ ?_ fun p hp hq => ?_
      · simp [Traffic.receiptAt, ht]
      · simp [Traffic.receiptAt]
      · cases p with
        | hand u =>
          have hut : u ≠ t := fun h => hp (by rw [h])
          simp only [Traffic.receiptAt, Function.update_of_ne hut]
        | lost => exact absurd rfl hq
        | _ => rfl
    · exact h.home p i m hp (mem_home hp hm rfl rfl)
  · cases hs

theorem deliver (h : TrafficInv a) (hs : a.step (.deliver t) = some a') : TrafficInv a' := by
  simp only [Traffic.step] at hs
  split at hs
  · rename_i i c n ht hht
    obtain rfl := Option.some.inj hs
    obtain ⟨q, hq, hrest⟩ := Receiver.deliver_stored (h.healthy i) (.ok n)
    obtain ⟨r, hr, hrc⟩ := h.hand t n hht
    obtain rfl : i = r.inst := by
      rw [ht] at hrc
      exact (Prod.mk.inj (Option.some.inj hrc)).1
    have hsame : ∀ p, p ≠ .hand t → p ≠ .stored r.inst q →
        ({ a with hand := Function.update a.hand t none }.setRecv r.inst
          ((a.recv r.inst).deliver (.ok n))).receiptAt p = a.receiptAt p := by
      intro p hp hpq
      rw [receiptAt_setRecv]
      cases p with
      | hand u =>
        have hut : u ≠ t := fun h => hp (by rw [h])
        simp only [Traffic.receiptAt, Function.update_of_ne hut]
      | stored j o =>
        dsimp only
        split
        · rename_i hj
          subst hj
          exact hrest o fun h => hpq (by rw [h])
        · rfl
      | _ => rfl
    have hto : ({ a with hand := Function.update a.hand t none }.setRecv r.inst
        ((a.recv r.inst).deliver (.ok n))).receiptAt (.stored r.inst q) =
          a.receiptAt (.stored r.inst q) ++ [n] := by
      rw [receiptAt_setRecv]
      simpa [Traffic.receiptAt] using hq
    refine h.carry rfl rfl rfl rfl (fun u m hm => ?_) ?_ (fun p j m hp hm => ?_)
      (healthy_setRecv h.healthy ((h.healthy _).deliver _))
    · simp only [Traffic.setRecv, Function.update_apply] at hm
      split at hm
      · cases hm
      · exact hm
    · refine h.receipts.move (p := .hand t) (q := .stored r.inst q) (l := [n]) nofun ?_ ?_ hsame
      · simp [Traffic.receiptAt, Traffic.setRecv, hht]
      · rw [hto]
    · by_cases hpq : p = .stored r.inst q
      · subst hpq
        rw [hto, List.mem_append] at hm
        rcases hm with hm | hm
        · exact h.home _ j m hp hm
        · rw [List.mem_singleton.mp hm]
          exact ⟨r, hr, Option.some.inj hp⟩
      · refine h.home p j m hp ?_
        rwa [hsame p ?_ hpq] at hm
        rintro rfl
        cases hp
  · cases hs

theorem run (h : TrafficInv a) (hs : a.step (.run i y) = some a') : TrafficInv a' := by
  simp only [Traffic.step] at hs
  split at hs
  · rename_i hy
    obtain rfl := Option.some.inj hs
    obtain ⟨p, q, l, hpq, hp, hq, hrest⟩ := (h.healthy i).shifts hy
    have hat : ∀ o, (a.setRecv i (y.apply (a.recv i))).receiptAt (.stored i o) =
        (y.apply (a.recv i)).stored o := by
      intro o
      rw [receiptAt_setRecv]
      simp
    have hsame : ∀ o, o ≠ .stored i p → o ≠ .stored i q →
        (a.setRecv i (y.apply (a.recv i))).receiptAt o = a.receiptAt o := by
      intro o hop hoq
      rw [receiptAt_setRecv]
      cases o with
      | stored j o =>
        dsimp only
        split
        · rename_i hj
          subst hj
          exact hrest o (fun h => hop (by rw [h])) fun h => hoq (by rw [h])
        · rfl
      | _ => rfl
    refine h.carry rfl rfl rfl rfl (fun _ _ hm => hm) ?_ (fun o j m ho hm => ?_)
      (healthy_setRecv h.healthy ((h.healthy i).apply y))
    · refine h.receipts.move (p := .stored i p) (q := .stored i q) (l := l) ?_ ?_ ?_ hsame
      · exact fun he => hpq (ReceiptPlace.stored.inj he).2
      · rw [hat]
        exact hp
      · rw [hat, hq]
        rfl
    · by_cases hop : o = .stored i p
      · subst hop
        rw [hat] at hm
        exact h.home _ j m ho (hp.symm.subset (List.mem_append_left _ hm))
      · by_cases hoq : o = .stored i q
        · subst hoq
          rw [hat, hq, List.mem_append] at hm
          rcases hm with hm | hm
          · exact h.home _ j m ho hm
          · exact h.home (.stored i p) j m ho (hp.symm.subset (List.mem_append_right _ hm))
        · exact h.home o j m ho (hsame o hop hoq ▸ hm)
  · cases hs

/-- A poll moves the receipt that the stream yields, or none. -/
theorem pollNext_cases (r : Receiver Nat) (id : Nat) (opening : Bool) :
    (∃ n, (r.pollNext id opening).1 = .ready (.ok n) ∧
      r.stored (some id) = n :: (r.pollNext id opening).2.stored (some id) ∧
      ∀ o, o ≠ some id → (r.pollNext id opening).2.stored o = r.stored o) ∨
    (∀ n, (r.pollNext id opening).1 ≠ .ready (.ok n)) ∧
      ∀ o, (r.pollNext id opening).2.stored o = r.stored o := by
  rcases Receiver.pollNext_stored r id opening with ⟨item, hitem, hq, ho⟩ | ⟨hno, heq⟩
  · cases item with
    | ok n => exact .inl ⟨n, hitem, hq, ho⟩
    | error e =>
      refine .inr ⟨fun n hn => ?_, fun o => ?_⟩
      · rw [hitem] at hn
        cases hn
      · by_cases hoid : o = some id
        · rw [hoid]
          exact hq.symm
        · exact ho o hoid
  · exact .inr ⟨fun n => hno _, fun o => by rw [heq]⟩

theorem yield_other {q : Poll (Inbound.Item Nat)} (hq : ∀ n, q ≠ .ready (.ok n)) :
    a.yield i id q = a := by
  unfold Traffic.yield
  split
  · rename_i n
    exact absurd rfl (hq n)
  · rfl

theorem receiptAt_yield {p : ReceiptPlace} : (a.yield i id (.ready (.ok n))).receiptAt p =
    if p = .returned i id then a.returned i id ++ [n] else a.receiptAt p := by
  cases p with
  | returned j k =>
    simp only [Traffic.yield, Traffic.receiptAt, Function.update_apply]
    by_cases hj : j = i
    · subst hj
      by_cases hk : k = id
      · subst hk
        simp
      · simp [hk]
    · simp [hj]
  | _ => exact (if_neg (by simp)).symm

theorem poll (h : TrafficInv a) (hs : a.step (.poll i id) = some a') : TrafficInv a' := by
  obtain ⟨q, hq⟩ : ∃ q, (a.recv i).pollNext id false = q := ⟨_, rfl⟩
  simp only [Traffic.step, hq] at hs
  obtain rfl := Option.some.inj hs
  have hhealthy : ∀ j, ((a.setRecv i q.2).recv j).Healthy :=
    healthy_setRecv h.healthy (hq ▸ (h.healthy i).pollNext false)
  have hcases := pollNext_cases (a.recv i) id false
  rw [hq] at hcases
  rcases hcases with ⟨n, hn, hfront, ho⟩ | ⟨hno, ho⟩
  · rw [hn]
    have hat : ∀ p, p ≠ .stored i (some id) → p ≠ .returned i id →
        ((a.setRecv i q.2).yield i id (.ready (.ok n))).receiptAt p = a.receiptAt p := by
      intro p hp hp'
      rw [receiptAt_yield, if_neg hp', receiptAt_setRecv]
      cases p with
      | stored j o =>
        dsimp only
        split
        · rename_i hj
          subst hj
          exact ho o fun h => hp (by rw [h])
        · rfl
      | _ => rfl
    have hleft : ((a.setRecv i q.2).yield i id (.ready (.ok n))).receiptAt (.stored i (some id)) =
        q.2.stored (some id) := by
      rw [receiptAt_yield, if_neg nofun, receiptAt_setRecv]
      exact if_pos rfl
    have hright : ((a.setRecv i q.2).yield i id (.ready (.ok n))).receiptAt (.returned i id) =
        a.receiptAt (.returned i id) ++ [n] := by
      rw [receiptAt_yield, if_pos rfl]
      rfl
    have hmem : ∀ m ∈ q.2.stored (some id) ++ [n], m ∈ a.receiptAt (.stored i (some id)) := by
      intro m hm
      show m ∈ (a.recv i).stored (some id)
      rw [hfront]
      simpa [or_comm] using hm
    refine h.carry rfl rfl rfl rfl (fun _ _ hm => hm) ?_ (fun p j m hp hm => ?_) hhealthy
    · refine h.receipts.move (p := .stored i (some id)) (q := .returned i id) (l := [n]) nofun
        ?_ ?_ hat
      · rw [hleft]
        exact (List.Perm.of_eq hfront).trans (List.perm_append_singleton _ _).symm
      · rw [hright]
    · by_cases hps : p = .stored i (some id)
      · subst hps
        rw [hleft] at hm
        exact h.home _ j m hp (hmem m (List.mem_append_left _ hm))
      · by_cases hpr : p = .returned i id
        · subst hpr
          rw [hright] at hm
          rcases List.mem_append.mp hm with hm | hm
          · exact h.home _ j m hp hm
          · exact h.home (.stored i (some id)) j m hp (hmem m (List.mem_append_right _ hm))
        · exact h.home p j m hp (hat p hps hpr ▸ hm)
  · rw [yield_other hno]
    have hat : (a.setRecv i q.2).receiptAt = a.receiptAt := by
      funext p
      rw [receiptAt_setRecv]
      cases p with
      | stored j o =>
        dsimp only
        split
        · rename_i hj
          subst hj
          exact ho o
        · rfl
      | _ => rfl
    refine h.carry rfl rfl rfl rfl (fun _ _ hm => hm) ?_ (fun p j m hp hm => ?_) hhealthy
    · rw [hat]
      exact h.receipts
    · exact h.home p j m hp (hat ▸ hm)

end TrafficInv

theorem trafficSys_inv : trafficSys.Inductive TrafficInv where
  init a ha := by
    obtain ⟨now, rfl⟩ := ha
    have hconn : (Traffic.new now).connAt = fun _ => [] := by
      funext p
      cases p <;> rfl
    have hrec : (Traffic.new now).receiptAt = fun _ => [] := by
      funext p
      cases p with
      | stored i o => cases o <;> rfl
      | _ => rfl
    refine ⟨?_, nofun, ?_, nofun, fun p i n _ hn => ?_, nofun, fun i => Receiver.healthy_new⟩
    · rw [hconn]
      exact Custody.nil
    · rw [hrec]
      exact Custody.nil
    · rw [hrec] at hn
      cases hn
  step a op a' h hs := by
    cases op with
    | accept t i c => exact h.accept hs
    | pass t r => exact h.pass hs
    | close t => exact h.close hs
    | receive t b => exact h.receive hs
    | deliver t => exact h.deliver hs
    | lose t => exact h.lose hs
    | run i x => exact h.run hs
    | poll i id => exact h.poll hs

/-- No connection is accepted twice. -/
theorem accepted_nodup : trafficSys.Inductive fun a => (a.accepted.map Prod.snd).Nodup where
  init a ha := by
    obtain ⟨now, rfl⟩ := ha
    exact List.nodup_nil
  step a op a' h hs := by
    cases op with
    | accept t i c =>
      simp only [trafficSys, Traffic.step] at hs
      split at hs
      · rename_i hfree
        obtain rfl := Option.some.inj hs
        rw [List.map_append]
        exact List.nodup_append.mpr ⟨h, List.nodup_singleton c, by
          intro d hd e he hde
          obtain rfl : d = c := hde.trans (List.mem_singleton.mp he)
          exact hfree.2.2 hd⟩
      · cases hs
    | poll i id =>
      obtain rfl := Option.some.inj hs
      unfold Traffic.yield
      split <;> exact h
    | pass t r | close t | receive t b | deliver t | lose t | run i x =>
      simp only [trafficSys, Traffic.step] at hs
      repeat' split at hs
      all_goals first
        | cases hs; done
        | obtain rfl := Option.some.inj hs
          exact h

end Cspcl
