import Mathlib.Data.Int.CardIntervalMod
import Mathlib.Data.List.Dedup
import Nullspace.Base.Machine
import Nullspace.Base.Table

/-!
# The pool of connections

All calls to one endpoint share the slots of its `PerUrlPool`. A call gets the index of its slot
from a counter, takes the transport which is there or puts a new one in, and takes a transport
over which it has failed out of the pool again. Between these three steps other calls go on: the
slot of a call may be empty again when it gets there, and its transport may be gone from the
pool when it fails.

A transport is numbered when it is made; `Arc::ptr_eq` compares the numbers.
-/

namespace Nullspace

open Nullspace.Base

variable {Url : Type}

structure PerUrlPool where
  nextIndex : UInt64
  transports : List (Option Nat)

namespace PerUrlPool

def fresh : PerUrlPool := ⟨0, []⟩

/-- `resize_with(index + 1, || None)`, if the slots do not reach to the index. -/
def resized (transports : List (Option Nat)) (index : Nat) : List (Option Nat) :=
  if transports.length ≤ index then
    transports ++ List.replicate (index + 1 - transports.length) none
  else transports

/-- `get_or_init_transport`: a new transport gets the number `next`. -/
def getOrInitTransport (pool : PerUrlPool) (index next : Nat) : PerUrlPool × Nat :=
  let slots := resized pool.transports index
  match slots[index]? with
  | some (some existing) => ({ pool with transports := slots }, existing)
  | _ => ({ pool with transports := slots.set index (some next) }, next)

/-- `drop_transport` -/
def dropTransport (pool : PerUrlPool) (target : Nat) : PerUrlPool :=
  { pool with
    transports := pool.transports.map fun slot => if slot = some target then none else slot }

/-- The transports which the pool holds. -/
def held (pool : PerUrlPool) : List Nat := pool.transports.filterMap id

end PerUrlPool

/-- Where a call is. -/
inductive PoolStage where
  /-- Before `get_or_init_transport`. -/
  | indexed (index : Nat)
  | calling (transport : Nat)
  /-- Before `drop_transport`. -/
  | failing (transport : Nat)
deriving DecidableEq

/-- The transport of a call which has one. -/
def PoolStage.transport? : PoolStage → Option Nat
  | .indexed _ => none
  | .calling transport | .failing transport => some transport

/-- What `RpcPoolBuilder::build` asserts. -/
structure PoolSize where
  maxConcurrency : Nat
  positive : 0 < maxConcurrency

/-- The size of `RpcPoolBuilder::new`. -/
def PoolSize.initial : PoolSize := ⟨1, Nat.one_pos⟩

structure RpcPool (Url : Type) where
  pools : Table Url PerUrlPool
  calls : List (Url × PoolStage)
  /-- The endpoints of the transports so far, by number. -/
  opened : List Url
  /-- The transports over which calls have failed. The code keeps no record. -/
  failed : List Nat
  /-- The slots which calls were given. The code keeps no record. -/
  given : List (Url × Nat)

inductive PoolEvent (Url : Type) where
  | call (url : Url)
  | getTransport (position : Nat)
  | finish (position : Nat) (succeeds : Bool)
  | dropTransport (position : Nat)
  /-- The caller goes away while its call is under way. -/
  | abandon (position : Nat)

namespace RpcPool

def fresh : RpcPool Url := ⟨∅, [], [], [], []⟩

variable [DecidableEq Url]

def poolOf (state : RpcPool Url) (url : Url) : PerUrlPool :=
  (state.pools.lookup url).getD .fresh

/-- `RpcPool::call_raw` up to the index of the slot. -/
def call (size : PoolSize) (state : RpcPool Url) (url : Url) : RpcPool Url :=
  let pool := state.poolOf url
  let index := pool.nextIndex.toNat % size.maxConcurrency
  { state with
    pools := state.pools.insert url { pool with nextIndex := pool.nextIndex + 1 }
    calls := state.calls ++ [(url, .indexed index)]
    given := state.given ++ [(url, index)] }

def getTransport (state : RpcPool Url) (position : Nat) (url : Url) (index : Nat) : RpcPool Url :=
  let taken := (state.poolOf url).getOrInitTransport index state.opened.length
  { state with
    pools := state.pools.insert url taken.1
    calls := state.calls.set position (url, .calling taken.2)
    -- A new transport has the next number.
    opened := if taken.2 = state.opened.length then state.opened ++ [url] else state.opened }

def fail (state : RpcPool Url) (position : Nat) (url : Url) (transport : Nat) : RpcPool Url :=
  { state with
    calls := state.calls.set position (url, .failing transport)
    failed := state.failed ++ [transport] }

def dropTransport (state : RpcPool Url) (position : Nat) (url : Url) (transport : Nat) :
    RpcPool Url :=
  { state with
    pools := state.pools.insert url ((state.poolOf url).dropTransport transport)
    calls := state.calls.eraseIdx position }

def endCall (state : RpcPool Url) (position : Nat) : RpcPool Url :=
  { state with calls := state.calls.eraseIdx position }

/-- The calls to all endpoints as a machine. -/
def machine (Url : Type) [DecidableEq Url] (size : PoolSize) :
    Machine (RpcPool Url) (PoolEvent Url) where
  step state
    | .call url => some (state.call size url)
    | .getTransport position =>
        match state.calls[position]? with
        | some (url, .indexed index) => some (state.getTransport position url index)
        | _ => none
    | .finish position succeeds =>
        match state.calls[position]? with
        | some (url, .calling transport) =>
            some (if succeeds then state.endCall position else state.fail position url transport)
        | _ => none
    | .dropTransport position =>
        match state.calls[position]? with
        | some (url, .failing transport) => some (state.dropTransport position url transport)
        | _ => none
    | .abandon position =>
        match state.calls[position]? with
        | some (_, .calling _) => some (state.endCall position)
        | _ => none

/-- The transports which were made for an endpoint. -/
def transportsOf (state : RpcPool Url) (url : Url) : List Nat :=
  (List.range state.opened.length).filter fun transport =>
    decide (state.opened[transport]? = some url)

end RpcPool

/-! ## Steps and runs -/

namespace PerUrlPool

/-- The slots are extended up to an index. -/
theorem length_resized (transports : List (Option Nat)) (index : Nat) :
    (resized transports index).length = max transports.length (index + 1) := by
  rw [resized]
  split
  · rw [List.length_append, List.length_replicate]
    omega
  · omega

/-- New slots are empty. -/
theorem filterMap_resized (transports : List (Option Nat)) (index : Nat) :
    (resized transports index).filterMap id = transports.filterMap id := by
  rw [resized]
  split
  · rw [List.filterMap_append]
    simp
  · rfl

/-- An empty slot is filled. -/
theorem filterMap_set_perm {slots : List (Option Nat)} {index : Nat}
    (empty : slots[index]? = some none) (next : Nat) :
    ((slots.set index (some next)).filterMap id).Perm (next :: slots.filterMap id) := by
  induction slots generalizing index with
  | nil => simp at empty
  | cons slot slots ih =>
      cases index with
      | zero =>
          rw [List.getElem?_cons_zero, Option.some.injEq] at empty
          subst empty
          simp
      | succ index =>
          rw [List.getElem?_cons_succ] at empty
          cases slot with
          | none => simpa using ih empty
          | some existing =>
              have filled := (ih empty).cons existing
              simpa using filled.trans (List.Perm.swap _ _ _)

/-- A call gets what its slot holds, or the slot holds what it gets. -/
theorem getOrInitTransport_cases (pool : PerUrlPool) (index next : Nat) :
    (pool.getOrInitTransport index next).1.transports.length =
        max pool.transports.length (index + 1) ∧
      (((pool.getOrInitTransport index next).2 ∈ pool.held ∧
          (pool.getOrInitTransport index next).1.held = pool.held) ∨
        ((pool.getOrInitTransport index next).2 = next ∧
          (pool.getOrInitTransport index next).1.held.Perm (next :: pool.held))) := by
  have within : index < (resized pool.transports index).length := by
    rw [length_resized]
    omega
  simp only [getOrInitTransport]
  split
  · rename_i existing found
    refine ⟨length_resized _ _, .inl ⟨?_, filterMap_resized _ _⟩⟩
    rw [held, ← filterMap_resized pool.transports index]
    exact List.mem_filterMap.mpr ⟨_, List.mem_of_getElem? found, rfl⟩
  · rename_i absent
    have empty : (resized pool.transports index)[index]? = some none := by
      rw [List.getElem?_eq_getElem within]
      cases slot : (resized pool.transports index)[index] with
      | none => rfl
      | some existing =>
          exact absurd ((List.getElem?_eq_getElem within).trans (congrArg some slot))
            (absent existing)
    refine ⟨by rw [List.length_set, length_resized], .inr ⟨rfl, ?_⟩⟩
    have filled := filterMap_set_perm empty next
    rw [filterMap_resized] at filled
    exact filled

/-- Dropping a transport removes it from its slot, and no other. -/
theorem held_dropTransport (pool : PerUrlPool) (target : Nat) :
    (pool.dropTransport target).held = pool.held.filter fun transport =>
      decide (transport ≠ target) := by
  simp only [held, dropTransport]
  induction pool.transports with
  | nil => rfl
  | cons slot slots ih =>
      cases slot with
      | none => simpa using ih
      | some existing =>
          by_cases same : existing = target
          · simpa [same] using ih
          · simpa [same] using ih

end PerUrlPool

namespace RpcPool

variable [DecidableEq Url]

/-- The pool of an endpoint after one endpoint's pool was written. -/
theorem poolOf_insert (state next : RpcPool Url) {url : Url} {pool : PerUrlPool}
    (written : next.pools = state.pools.insert url pool) (other : Url) :
    next.poolOf other = if other = url then pool else state.poolOf other := by
  rw [poolOf, written, Table.lookup_insert_eq]
  split <;> rfl

/-- What a call has: a slot, or a transport to its endpoint. -/
def Proper (size : PoolSize) (state : RpcPool Url) : Url × PoolStage → Prop
  | (_, .indexed index) => index < size.maxConcurrency
  | (url, .calling transport) => state.opened[transport]? = some url
  | (url, .failing transport) =>
      state.opened[transport]? = some url ∧ transport ∈ state.failed

structure Tidy (size : PoolSize) (state : RpcPool Url) : Prop where
  few : ∀ url, (state.poolOf url).transports.length ≤ size.maxConcurrency
  opened : ∀ url, ∀ transport ∈ (state.poolOf url).held, state.opened[transport]? = some url
  apart : ∀ url, (state.poolOf url).held.Nodup
  calls : ∀ call ∈ state.calls, state.Proper size call
  /-- Only a transport which has failed leaves its pool. -/
  kept : ∀ url transport, state.opened[transport]? = some url →
    transport ∈ (state.poolOf url).held ∨ transport ∈ state.failed

omit [DecidableEq Url] in
theorem Proper.mono {size : PoolSize} {state next : RpcPool Url} {call : Url × PoolStage}
    (proper : state.Proper size call)
    (opened : ∀ (transport : Nat) (url : Url), state.opened[transport]? = some url →
      next.opened[transport]? = some url)
    (failed : ∀ transport ∈ state.failed, transport ∈ next.failed) : next.Proper size call := by
  obtain ⟨url, stage⟩ := call
  cases stage with
  | indexed index => exact proper
  | calling transport => exact opened transport url proper
  | failing transport => exact ⟨opened transport url proper.1, failed transport proper.2⟩

theorem tidy_fresh (size : PoolSize) : (fresh : RpcPool Url).Tidy size where
  few url := Nat.zero_le _
  opened url transport listed := by simp [poolOf, fresh, PerUrlPool.held, PerUrlPool.fresh] at listed
  apart url := .nil
  calls call listed := absurd listed List.not_mem_nil
  kept url transport made := by simp [fresh] at made

/-- A new call leaves the pool tidy. -/
theorem Tidy.call {size : PoolSize} {state : RpcPool Url} (tidy : state.Tidy size) (url : Url) :
    (state.call size url).Tidy size := by
  have pools := poolOf_insert state (state.call size url) rfl
  have same : ∀ other,
      ((state.call size url).poolOf other).transports = (state.poolOf other).transports := by
    intro other
    rw [pools]
    split
    · rename_i here
      rw [here]
    · rfl
  have held : ∀ other, ((state.call size url).poolOf other).held = (state.poolOf other).held :=
    fun other => congrArg (List.filterMap id) (same other)
  refine ⟨?_, ?_, ?_, ?_, ?_⟩
  · exact fun other => same other ▸ tidy.few other
  · exact fun other => held other ▸ tidy.opened other
  · exact fun other => held other ▸ tidy.apart other
  · intro call listed
    rcases List.mem_append.mp listed with earlier | new
    · exact Proper.mono (tidy.calls call earlier) (fun _ _ made => made) fun _ failed => failed
    · rw [List.mem_singleton.mp new]
      exact Nat.mod_lt _ size.positive
  · exact fun other => held other ▸ tidy.kept other

/-- A transport which is fetched or opened leaves the pool tidy. -/
theorem Tidy.getTransport {size : PoolSize} {state : RpcPool Url} (tidy : state.Tidy size)
    (position : Nat) {url : Url} {index : Nat} (within : index < size.maxConcurrency) :
    (state.getTransport position url index).Tidy size := by
  have pools := poolOf_insert state (state.getTransport position url index) rfl
  obtain ⟨length, outcome⟩ :=
    (state.poolOf url).getOrInitTransport_cases index state.opened.length
  have few : ∀ other, ((state.getTransport position url index).poolOf other).transports.length ≤
      size.maxConcurrency := by
    intro other
    rw [pools]
    split
    · rw [length]
      exact max_le (tidy.few url) within
    · exact tidy.few other
  rcases outcome with ⟨listed, held⟩ | ⟨new, held⟩
  · have made := tidy.opened url _ listed
    have known : ((state.poolOf url).getOrInitTransport index state.opened.length).2 ≠
        state.opened.length := by
      intro same
      rw [same, List.getElem?_eq_none (le_refl _)] at made
      cases made
    have opened : (state.getTransport position url index).opened = state.opened := if_neg known
    have same : ∀ other, ((state.getTransport position url index).poolOf other).held =
        (state.poolOf other).held := by
      intro other
      rw [pools]
      split
      · rename_i here
        rw [here]
        exact held
      · rfl
    refine ⟨few, ?_, ?_, ?_, ?_⟩
    · exact fun other => opened ▸ same other ▸ tidy.opened other
    · exact fun other => same other ▸ tidy.apart other
    · intro call member
      rcases List.mem_or_eq_of_mem_set member with earlier | rfl
      · exact Proper.mono (tidy.calls call earlier) (fun _ _ made => opened ▸ made)
          fun _ failed => failed
      · rw [Proper, opened]
        exact made
    · exact fun other => opened ▸ same other ▸ tidy.kept other
  · have opened : (state.getTransport position url index).opened = state.opened ++ [url] :=
      if_pos new
    have last : (state.getTransport position url index).opened[state.opened.length]? = some url := by
      rw [opened, List.getElem?_concat_length]
    have earlier : ∀ (number : Nat) (other : Url), state.opened[number]? = some other →
        (state.getTransport position url index).opened[number]? = some other := by
      intro number other made
      have below : number < state.opened.length := (List.getElem?_eq_some_iff.mp made).1
      rw [opened, List.getElem?_append_left below, made]
    have holds : ∀ other number, number ∈ ((state.getTransport position url index).poolOf other).held ↔
        (other = url ∧ number = state.opened.length) ∨ number ∈ (state.poolOf other).held := by
      intro other number
      rw [pools]
      split
      · rename_i here
        rw [held.mem_iff, List.mem_cons, here]
        simp
      · rename_i elsewhere
        simp [elsewhere]
    refine ⟨few, ?_, ?_, ?_, ?_⟩
    · intro other number member
      rcases (holds other number).mp member with ⟨rfl, rfl⟩ | before
      · exact last
      · exact earlier number other (tidy.opened other number before)
    · intro other
      rw [pools]
      split
      · refine held.nodup_iff.mpr (List.nodup_cons.mpr ⟨fun listed => ?_, tidy.apart url⟩)
        have made := tidy.opened url _ listed
        rw [List.getElem?_eq_none (le_refl _)] at made
        cases made
      · exact tidy.apart other
    · intro call member
      rcases List.mem_or_eq_of_mem_set member with before | rfl
      · exact Proper.mono (tidy.calls call before) earlier fun _ failed => failed
      · rw [Proper, new]
        exact last
    · intro other number made
      rw [opened, List.getElem?_append] at made
      split at made
      · exact (tidy.kept other number made).imp_left fun before =>
          (holds other number).mpr (.inr before)
      · rename_i beyond
        obtain ⟨within, same⟩ := List.getElem?_eq_some_iff.mp made
        rw [List.length_singleton] at within
        rw [List.getElem_singleton] at same
        exact .inl ((holds other number).mpr (.inl ⟨same.symm, by omega⟩))

/-- A call which fails leaves the pool tidy. -/
theorem Tidy.fail {size : PoolSize} {state : RpcPool Url} (tidy : state.Tidy size)
    (position : Nat) {url : Url} {transport : Nat}
    (made : state.opened[transport]? = some url) :
    (state.fail position url transport).Tidy size := by
  have listed : ∀ other ∈ state.failed, other ∈ (state.fail position url transport).failed :=
    fun other before => List.mem_append_left _ before
  refine ⟨tidy.few, tidy.opened, tidy.apart, ?_, ?_⟩
  · intro call member
    rcases List.mem_or_eq_of_mem_set member with earlier | rfl
    · exact Proper.mono (tidy.calls call earlier) (fun _ _ made => made) listed
    · exact ⟨made, List.mem_append_right _ (List.mem_singleton_self _)⟩
  · exact fun other number opened => (tidy.kept other number opened).imp_right (listed number)

/-- The end of a call leaves the pool tidy. -/
theorem Tidy.endCall {size : PoolSize} {state : RpcPool Url} (tidy : state.Tidy size)
    (position : Nat) : (state.endCall position).Tidy size := by
  refine ⟨tidy.few, tidy.opened, tidy.apart, ?_, tidy.kept⟩
  intro call listed
  exact Proper.mono (tidy.calls call (List.mem_of_mem_eraseIdx listed)) (fun _ _ made => made)
    fun _ failed => failed

/-- A failed transport which is dropped leaves the pool tidy. -/
theorem Tidy.dropTransport {size : PoolSize} {state : RpcPool Url} (tidy : state.Tidy size)
    (position : Nat) {url : Url} {transport : Nat} (failed : transport ∈ state.failed) :
    (state.dropTransport position url transport).Tidy size := by
  have pools := poolOf_insert state (state.dropTransport position url transport) rfl
  have holds : ∀ other number,
      number ∈ ((state.dropTransport position url transport).poolOf other).held ↔
        number ∈ (state.poolOf other).held ∧ (other = url → number ≠ transport) := by
    intro other number
    rw [pools]
    split
    · rename_i here
      rw [PerUrlPool.held_dropTransport, List.mem_filter, decide_eq_true_eq, here]
      simp
    · rename_i elsewhere
      simp [elsewhere]
  refine ⟨?_, ?_, ?_, ?_, ?_⟩
  · intro other
    rw [pools]
    split
    · rw [PerUrlPool.dropTransport, List.length_map]
      exact tidy.few url
    · exact tidy.few other
  · exact fun other number listed => tidy.opened other number ((holds other number).mp listed).1
  · intro other
    rw [pools]
    split
    · rw [PerUrlPool.held_dropTransport]
      exact (tidy.apart url).filter _
    · exact tidy.apart other
  · exact (tidy.endCall position).calls
  · intro other number made
    by_cases gone : number = transport
    · exact .inr (gone ▸ failed)
    · exact (tidy.kept other number made).imp_left fun listed =>
        (holds other number).mpr ⟨listed, fun _ => gone⟩

/-- Every step leaves the pool tidy. -/
theorem Tidy.step {size : PoolSize} {state next : RpcPool Url} {event : PoolEvent Url}
    (tidy : state.Tidy size) (taken : (machine Url size).step state event = some next) :
    next.Tidy size := by
  cases event with
  | call url =>
      cases taken
      exact tidy.call url
  | getTransport position =>
      simp only [machine] at taken
      split at taken
      · rename_i url index found
        cases taken
        exact tidy.getTransport position (tidy.calls _ (List.mem_of_getElem? found))
      · cases taken
  | finish position succeeds =>
      simp only [machine] at taken
      split at taken
      · rename_i url transport found
        cases taken
        split
        · exact tidy.endCall position
        · exact tidy.fail position (tidy.calls _ (List.mem_of_getElem? found))
      · cases taken
  | dropTransport position =>
      simp only [machine] at taken
      split at taken
      · rename_i url transport found
        cases taken
        have proper := tidy.calls _ (List.mem_of_getElem? found)
        exact tidy.dropTransport position proper.2
      · cases taken
  | abandon position =>
      simp only [machine] at taken
      split at taken
      · cases taken
        exact tidy.endCall position
      · cases taken

/-- What the pool is for: few connections, of which none is given up without need. -/
structure Pooled (size : PoolSize) (state : RpcPool Url) : Prop where
  /-- The transports to one endpoint over which no call has failed. -/
  healthy : ∀ url, ((state.transportsOf url).filter fun transport =>
    decide (transport ∉ state.failed)).length ≤ size.maxConcurrency
  /-- Each of them stays in the pool of its endpoint. -/
  kept : ∀ url, ∀ transport ∈ state.transportsOf url, transport ∉ state.failed →
    transport ∈ (state.poolOf url).held
  apart : ∀ url, (state.poolOf url).held.Nodup
  /-- A call goes over a transport to its own endpoint. -/
  own : ∀ call ∈ state.calls, ∀ transport ∈ call.2.transport?, transport ∈ state.transportsOf call.1

/-- The transports of a URL are those which were opened for it. -/
theorem mem_transportsOf {state : RpcPool Url} {url : Url} {transport : Nat} :
    transport ∈ state.transportsOf url ↔ state.opened[transport]? = some url := by
  rw [transportsOf, List.mem_filter, List.mem_range, decide_eq_true_eq, and_iff_right_iff_imp]
  exact fun made => (List.getElem?_eq_some_iff.mp made).1

/-- A tidy pool has few connections and gives none up without need. -/
theorem Tidy.pooled {size : PoolSize} {state : RpcPool Url} (tidy : state.Tidy size) :
    state.Pooled size := by
  have kept : ∀ url, ∀ transport ∈ state.transportsOf url, transport ∉ state.failed →
      transport ∈ (state.poolOf url).held := by
    intro url transport made well
    exact (tidy.kept url transport (mem_transportsOf.mp made)).resolve_right well
  refine ⟨?_, kept, tidy.apart, ?_⟩
  · intro url
    have distinct : ((state.transportsOf url).filter fun transport =>
        decide (transport ∉ state.failed)).Nodup := (List.nodup_range.filter _).filter _
    have within : ∀ transport ∈ (state.transportsOf url).filter fun transport =>
        decide (transport ∉ state.failed), transport ∈ (state.poolOf url).held := by
      intro transport listed
      obtain ⟨made, well⟩ := List.mem_filter.mp listed
      exact kept url transport made (of_decide_eq_true well)
    calc _ ≤ (state.poolOf url).held.length := (distinct.subperm within).length_le
      _ ≤ (state.poolOf url).transports.length := List.length_filterMap_le _ _
      _ ≤ size.maxConcurrency := tidy.few url
  · rintro ⟨url, stage⟩ listed transport has
    have proper := tidy.calls _ listed
    cases stage with
    | indexed index => cases has
    | calling number =>
        cases has
        exact mem_transportsOf.mpr proper
    | failing number =>
        cases has
        exact mem_transportsOf.mpr proper.1

/-- However the steps of calls follow each other, and whoever goes away: there are never more
transports to one endpoint than slots, apart from those over which a call has failed; no slot
loses another one, and every call goes over a transport to its own endpoint. -/
theorem pooled_always (size : PoolSize) (events : List (PoolEvent Url)) :
    (machine Url size).Always (Pooled size) fresh events := by
  have tidy := Machine.always_of_step Tidy.step events (tidy_fresh size)
  exact fun before position state reached => (tidy before position state reached).pooled

/-- A call fails, its transport is dropped, and the next call opens another one. -/
def droppedRun : List (PoolEvent Bool) :=
  [.call true, .getTransport 0, .finish 0 false, .dropTransport 0, .call true, .getTransport 0]

/-- In the run in which the only transport of a pool fails, a second one takes its slot. -/
theorem pooled_always_dropped :
    ((machine Bool .initial).exec fresh droppedRun).map RpcPool.opened = some [true, true] ∧
      (machine Bool .initial).Always (Pooled .initial) fresh droppedRun :=
  ⟨by decide +kernel, pooled_always .initial droppedRun⟩

/-- The slots which the calls to an endpoint were given, in order. -/
def givenTo (state : RpcPool Url) (url : Url) : List Nat :=
  (state.given.filter fun entry => decide (entry.1 = url)).map Prod.snd

/-- The slot of a call by its number: the counter wraps around. -/
def slotOf (size : PoolSize) (number : Nat) : Nat := number % 2 ^ 64 % size.maxConcurrency

structure Counted (size : PoolSize) (state : RpcPool Url) : Prop where
  counter : ∀ url, (state.poolOf url).nextIndex.toNat = (state.givenTo url).length % 2 ^ 64
  slots : ∀ url, state.givenTo url = (List.range (state.givenTo url).length).map (slotOf size)

theorem counted_fresh (size : PoolSize) : (fresh : RpcPool Url).Counted size where
  counter _ := rfl
  slots _ := rfl

theorem Counted.of_eq {size : PoolSize} {state next : RpcPool Url} (counted : state.Counted size)
    (given : next.given = state.given)
    (counters : ∀ url, (next.poolOf url).nextIndex = (state.poolOf url).nextIndex) :
    next.Counted size := by
  have same : ∀ url, next.givenTo url = state.givenTo url := by
    intro url
    rw [givenTo, given, givenTo]
  refine ⟨fun url => ?_, fun url => ?_⟩
  · rw [counters, same]
    exact counted.counter url
  · rw [same]
    exact counted.slots url

/-- A call takes the turn of the counter. -/
theorem givenTo_call (size : PoolSize) (state : RpcPool Url) (url other : Url) :
    (state.call size url).givenTo other =
      if other = url then
        state.givenTo other ++ [(state.poolOf url).nextIndex.toNat % size.maxConcurrency]
      else state.givenTo other := by
  simp only [givenTo, call, List.filter_append, List.map_append]
  split
  · rename_i here
    simp [here]
  · rename_i elsewhere
    simp [Ne.symm elsewhere]

/-- A call keeps the count of turns. -/
theorem Counted.call {size : PoolSize} {state : RpcPool Url} (counted : state.Counted size)
    (url : Url) : (state.call size url).Counted size := by
  have pools := poolOf_insert state (state.call size url) rfl
  refine ⟨fun other => ?_, fun other => ?_⟩
  · rw [pools, givenTo_call]
    split
    · rename_i here
      have before := counted.counter url
      rw [List.length_append, List.length_singleton, here, UInt64.toNat_add, before]
      change (_ + 1) % _ = _
      omega
    · exact counted.counter other
  · rw [givenTo_call]
    split
    · rename_i here
      subst here
      rw [List.length_append, List.length_singleton, List.range_succ, List.map_append,
        ← counted.slots other, List.map_singleton, slotOf, counted.counter other]
    · exact counted.slots other

/-- The counter moves with calls only. -/
theorem nextIndex_getOrInitTransport (pool : PerUrlPool) (index next : Nat) :
    (pool.getOrInitTransport index next).1.nextIndex = pool.nextIndex := by
  simp only [PerUrlPool.getOrInitTransport]
  split <;> rfl

/-- Every step keeps the count of turns. -/
theorem Counted.step {size : PoolSize} {state next : RpcPool Url} {event : PoolEvent Url}
    (counted : state.Counted size) (taken : (machine Url size).step state event = some next) :
    next.Counted size := by
  cases event with
  | call url =>
      cases taken
      exact counted.call url
  | getTransport position =>
      simp only [machine] at taken
      split at taken
      · rename_i url index _
        cases taken
        refine counted.of_eq rfl fun other => ?_
        rw [poolOf_insert state (state.getTransport position url index) rfl]
        split
        · rename_i here
          rw [nextIndex_getOrInitTransport, here]
        · rfl
      · cases taken
  | finish position succeeds =>
      simp only [machine] at taken
      split at taken
      · cases taken
        split
        · exact counted.of_eq rfl fun _ => rfl
        · exact counted.of_eq rfl fun _ => rfl
      · cases taken
  | dropTransport position =>
      simp only [machine] at taken
      split at taken
      · rename_i url transport _
        cases taken
        refine counted.of_eq rfl fun other => ?_
        rw [poolOf_insert state (state.dropTransport position url transport) rfl]
        split
        · rename_i here
          rw [here]
          rfl
        · rfl
      · cases taken
  | abandon position =>
      simp only [machine] at taken
      split at taken
      · cases taken
        exact counted.of_eq rfl fun _ => rfl
      · cases taken

/-- The slots of an endpoint have got the same number of calls, up to one. -/
def Spread (size : PoolSize) (state : RpcPool Url) : Prop :=
  ∀ url, (state.givenTo url).length ≤ 2 ^ 64 → ∀ slot, slot < size.maxConcurrency →
    (state.givenTo url).count slot =
      (state.givenTo url).length / size.maxConcurrency +
        if slot < (state.givenTo url).length % size.maxConcurrency then 1 else 0

/-- Counted turns are spread over the slots. -/
theorem Counted.spread {size : PoolSize} {state : RpcPool Url} (counted : state.Counted size) :
    state.Spread size := by
  intro url unwrapped slot within
  generalize length : (state.givenTo url).length = count at unwrapped ⊢
  have turns : ∀ number ∈ List.range count,
      (slotOf size number = slot ↔ number ≡ slot [MOD size.maxConcurrency]) := by
    intro number listed
    have below : number < 2 ^ 64 := (List.mem_range.mp listed).trans_le unwrapped
    rw [slotOf, Nat.mod_eq_of_lt below, Nat.ModEq, Nat.mod_eq_of_lt within]
  rw [counted.slots url, length, List.count, List.countP_map]
  calc (List.range count).countP _ = Nat.count (· ≡ slot [MOD size.maxConcurrency]) count := by
        refine List.countP_congr fun number listed => ?_
        simpa using turns number listed
    _ = _ := by rw [Nat.count_modEq_card count size.positive slot, Nat.mod_eq_of_lt within]

/-- However calls are interleaved, they go to the slots of their endpoint in turn. -/
theorem spread_always (size : PoolSize) (events : List (PoolEvent Url)) :
    (machine Url size).Always (Spread size) fresh events := by
  have counted := Machine.always_of_step Counted.step events (counted_fresh size)
  exact fun before position state reached => (counted before position state reached).spread

/-- In that run both turns go to the only slot. -/
theorem spread_always_dropped :
    ((machine Bool .initial).exec fresh droppedRun).map (fun state => state.givenTo true) =
        some [0, 0] ∧
      (machine Bool .initial).Always (Spread .initial) fresh droppedRun :=
  ⟨by decide +kernel, spread_always .initial droppedRun⟩

end RpcPool
end Nullspace
