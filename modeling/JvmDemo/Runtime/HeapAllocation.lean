import JvmDemo.Runtime.HeapLayout
import Mathlib.Data.List.Induction

/-!
# Sequences of allocations

`AllocObject` with the `realloc` that it calls on the next free address.  The
counters of the heap stay in step with the objects that were handed out, until
an object of 0 bytes is asked for: `realloc` then releases the block and returns
a null pointer, through which the header is written.

The calls of `realloc` themselves keep the contract of `JvmDemo.Lib.Allocation`
only for heaps without objects: the first call releases the block of the heap
for one of the size of the object, and the following calls are made on addresses
at which no block starts.
-/

namespace JvmDemo.Runtime

open JvmDemo.Lib
open HeapMembers

/-- The updates of the members for an object. -/
def HeapMembers.bump (members : HeapMembers) (objSize : DWord) : HeapMembers :=
  { members with
    freshPos := members.freshPos + objSize
    bytesAllocated := members.bytesAllocated + objSize
    objectsAllocated := members.objectsAllocated + 1 }

/-- `AllocObject`; the state is that of libc, with the memory.  `realloc` may return
a null pointer, through which the header is then written. -/
def HeapMembers.allocObject {σ : Type} (libc : Allocator Fault (σ × Memory))
    (members : HeapMembers) (klass objSize : DWord) (state : σ × Memory) :
    Exec (DWord × HeapMembers × σ × Memory) :=
  let objSize := roundUpWord objSize objectAlignment
  if members.freshStart + members.freshSize < members.freshPos + objSize then
    pure (0, members, state)
  else do
    let (obj, state, memory) ← libc.realloc members.freshPos objSize state
    if obj = 0 then undefined "null Object"
    else
      pure (obj, members.bump objSize, state, Heap.initHeader memory obj.toNat klass)

/-- One request. -/
structure AllocRequest where
  klass : DWord
  size : DWord
  deriving DecidableEq, Repr

/-- One call of `AllocObject` with its result. -/
structure AllocCall where
  klass : DWord
  size : DWord
  result : DWord
  deriving DecidableEq, Repr

def AllocCall.request (call : AllocCall) : AllocRequest := ⟨call.klass, call.size⟩

/-- Calls that have returned, from a heap and a state to others. -/
inductive Calls {σ : Type} (libc : Allocator Fault (σ × Memory)) (start : HeapMembers)
    (before : σ × Memory) : List AllocCall → HeapMembers → σ × Memory → Prop where
  | nil : Calls libc start before [] start before
  | snoc {calls members state klass size result after afterState}
      (earlier : Calls libc start before calls members state)
      (call : members.allocObject libc klass size state = .ok (result, after, afterState)) :
      Calls libc start before (calls ++ [⟨klass, size, result⟩]) after afterState

/-! ## One call -/

/-- A size rounded up to the alignment. -/
def roundedSize (size : DWord) : Nat := (size.toNat + 7) / 8 * 8

theorem toNat_roundUpWord_eq {size : DWord} (small : size.toNat < 2 ^ 63) :
    (roundUpWord size objectAlignment).toNat = roundedSize size := by
  have rounded : (roundUpWord size objectAlignment).toNat = roundUp size.toNat 8 :=
    toNat_roundUpWord size
  rw [rounded, roundUp, roundDown, roundedSize]
  omega

/-- The fresh space lies in the lower half of the address space. -/
structure FreshSpace (members : HeapMembers) : Prop where
  pos_le : members.freshPos.toNat ≤ members.freshStart.toNat + members.freshSize.toNat
  low : members.freshStart.toNat + members.freshSize.toNat < 2 ^ 63

/-- The bytes that are left in the fresh space. -/
def HeapMembers.remaining (members : HeapMembers) : Nat :=
  members.freshStart.toNat + members.freshSize.toNat - members.freshPos.toNat

section

variable {σ : Type} {libc : Allocator Fault (σ × Memory)} {members : HeapMembers}
  {klass size : DWord} {state : σ × Memory}

/-- An object that fits ends inside the fresh space. -/
theorem FreshSpace.toNat_pos_bump (space : FreshSpace members) (small : size.toNat < 2 ^ 63)
    (fits : roundedSize size ≤ members.remaining) :
    (members.bump (roundUpWord size objectAlignment)).freshPos.toNat =
      members.freshPos.toNat + roundedSize size := by
  have pos_le := space.pos_le
  have low := space.low
  rw [remaining] at fits
  rw [← toNat_roundUpWord_eq small] at fits ⊢
  exact BitVec.toNat_add_of_lt (by omega)

theorem FreshSpace.bump (space : FreshSpace members) (small : size.toNat < 2 ^ 63)
    (fits : roundedSize size ≤ members.remaining) :
    FreshSpace (members.bump (roundUpWord size objectAlignment)) := by
  have pos := space.toNat_pos_bump small fits
  have pos_le := space.pos_le
  rw [remaining] at fits
  constructor
  case pos_le =>
    show _ ≤ members.freshStart.toNat + members.freshSize.toNat
    omega
  case low => exact space.low

/-- The test for a full fresh space does not wrap. -/
theorem full_iff (space : FreshSpace members) (small : size.toNat < 2 ^ 63) :
    members.freshStart + members.freshSize <
        members.freshPos + roundUpWord size objectAlignment ↔
      members.remaining < roundedSize size := by
  have pos_le := space.pos_le
  have low := space.low
  have rounded := toNat_roundUpWord_eq small
  have bound : roundedSize size ≤ 2 ^ 63 := by
    rw [roundedSize]
    omega
  have limit : (members.freshStart + members.freshSize).toNat =
      members.freshStart.toNat + members.freshSize.toNat := BitVec.toNat_add_of_lt (by omega)
  have next : (members.freshPos + roundUpWord size objectAlignment).toNat =
      members.freshPos.toNat + (roundUpWord size objectAlignment).toNat :=
    BitVec.toNat_add_of_lt (by omega)
  rw [BitVec.lt_def, limit, next, rounded, remaining]
  omega

theorem allocObject_full (space : FreshSpace members) (small : size.toNat < 2 ^ 63)
    (full : members.remaining < roundedSize size) :
    members.allocObject libc klass size state = .ok (0, members, state) :=
  if_pos ((full_iff space small).mpr full)

theorem allocObject_fits (space : FreshSpace members) (small : size.toNat < 2 ^ 63)
    (fits : roundedSize size ≤ members.remaining) {obj : DWord} {after : σ × Memory}
    (returned : libc.realloc members.freshPos (roundUpWord size objectAlignment) state =
      .ok (obj, after)) (notNull : obj ≠ 0) :
    members.allocObject libc klass size state =
      .ok (obj, members.bump (roundUpWord size objectAlignment),
        after.1, Heap.initHeader after.2 obj.toNat klass) := by
  have notFull := (full_iff space small).not.mpr (Nat.not_lt.mpr fits)
  rw [allocObject, if_neg notFull, returned, Exec.bind_ok]
  exact if_neg notNull

theorem allocObject_refused (space : FreshSpace members) (small : size.toNat < 2 ^ 63)
    (fits : roundedSize size ≤ members.remaining) {fault : Fault}
    (refused : libc.realloc members.freshPos (roundUpWord size objectAlignment) state =
      .error fault) : members.allocObject libc klass size state = .error fault := by
  have notFull := (full_iff space small).not.mpr (Nat.not_lt.mpr fits)
  rw [allocObject, if_neg notFull, refused]
  rfl

/-- What a call that returns has done. -/
theorem allocObject_cases (space : FreshSpace members) (small : size.toNat < 2 ^ 63)
    {result : DWord} {after : HeapMembers} {afterState : σ × Memory}
    (call : members.allocObject libc klass size state = .ok (result, after, afterState)) :
    (members.remaining < roundedSize size ∧ result = 0 ∧ after = members ∧ afterState = state) ∨
      (roundedSize size ≤ members.remaining ∧ result ≠ 0 ∧
        (∃ middle, libc.realloc members.freshPos (roundUpWord size objectAlignment) state =
          .ok (result, middle) ∧
            afterState = (middle.1, Heap.initHeader middle.2 result.toNat klass)) ∧
        after = members.bump (roundUpWord size objectAlignment)) := by
  by_cases full : members.remaining < roundedSize size
  · rw [allocObject_full space small full] at call
    cases call
    exact .inl ⟨full, rfl, rfl, rfl⟩
  · have notFull := (full_iff space small).not.mpr full
    rw [allocObject, if_neg notFull] at call
    rcases Exec.bind_eq_ok.mp call with ⟨⟨obj, middle⟩, returned, rest⟩
    dsimp only at rest
    split at rest
    case isTrue => cases rest
    case isFalse notNull =>
      cases rest
      exact .inr ⟨Nat.not_lt.mp full, notNull, ⟨middle, returned, rfl⟩, rfl⟩

/-- With a `realloc` that returns its argument, the call is the one of `Heap`. -/
theorem toHeap_allocObject (space : FreshSpace members) (small : size.toNat < 2 ^ 63)
    (notNull : members.freshPos ≠ 0)
    (same : libc.realloc members.freshPos (roundUpWord size objectAlignment) state =
      .ok (members.freshPos, state)) :
    ∃ result after afterState,
      members.allocObject libc klass size state = .ok (result, after, afterState) ∧
        members.toHeap.allocObject state.2 klass size.toNat =
          (result, after.toHeap, afterState.2) := by
  have rounded : (roundUpWord size objectAlignment).toNat = roundUp size.toNat 8 :=
    toNat_roundUpWord size
  have roundedEq := toNat_roundUpWord_eq small
  have pos_le := space.pos_le
  have low := space.low
  by_cases full : members.remaining < roundedSize size
  · have heapFull : members.toHeap.freshStart + members.toHeap.freshSize <
        members.toHeap.freshPos + roundUp size.toNat 8 := by
      show members.freshStart.toNat + members.freshSize.toNat < members.freshPos.toNat + _
      rw [remaining] at full
      omega
    exact ⟨0, members, state, allocObject_full space small full, if_pos heapFull⟩
  · have fits := Nat.not_lt.mp full
    have heapFits : ¬ members.toHeap.freshStart + members.toHeap.freshSize <
        members.toHeap.freshPos + roundUp size.toNat 8 := by
      show ¬ members.freshStart.toNat + members.freshSize.toNat < members.freshPos.toNat + _
      rw [remaining] at fits
      omega
    have nextPos := space.toNat_pos_bump small fits
    have nextBytes : (members.bytesAllocated.toNat + roundUp size.toNat 8) % 2 ^ 64 =
        (members.bump (roundUpWord size objectAlignment)).bytesAllocated.toNat := by
      rw [← rounded]
      exact (BitVec.toNat_add _ _).symm
    have nextObjects : (members.objectsAllocated.toNat + 1) % 2 ^ 64 =
        (members.bump (roundUpWord size objectAlignment)).objectsAllocated.toNat :=
      (BitVec.toNat_add _ 1).symm
    refine ⟨_, _, _, allocObject_fits space small fits same notNull, ?_⟩
    have object : BitVec.ofNat 64 members.freshPos.toNat = members.freshPos :=
      BitVec.ofNat_toNat _ _
    have heapPos : members.freshPos.toNat + roundUp size.toNat 8 =
        (members.bump (roundUpWord size objectAlignment)).freshPos.toNat := by
      omega
    rw [Heap.allocObject, Heap.objectAlignment, if_neg heapFits]
    simp only [toHeap, object, heapPos, nextBytes, nextObjects]
    rfl

end

/-! ## Accounting -/

/-- The calls that have returned an object. -/
def successes (calls : List AllocCall) : List AllocCall := calls.filter fun call => call.result != 0

/-- The counters after some calls, for the heap that the constructor made. -/
structure Accounting (start : HeapMembers) (calls : List AllocCall) (members : HeapMembers) :
    Prop where
  kept : members =
    { start with
      freshPos := members.freshPos
      bytesAllocated := members.bytesAllocated
      objectsAllocated := members.objectsAllocated }
  pos : members.freshPos.toNat = members.freshStart.toNat + members.bytesAllocated.toNat
  aligned : members.freshPos.toNat % 8 = 0
  bounded : members.freshPos.toNat ≤ members.freshStart.toNat + members.freshSize.toNat
  objects : members.objectsAllocated.toNat = (successes calls).length
  bytes : members.bytesAllocated.toNat =
    ((successes calls).map fun call => roundedSize call.size).sum

/-- What the accounting takes from libc: blocks lie well below the middle of the
address space, and a block that is given the size 0 is released. -/
structure UserSpace {σ : Type} (libc : Allocator Fault (σ × Memory)) : Prop where
  low : ∀ {size state block after}, libc.calloc size state = .ok (block, after) →
    block.toNat < 2 ^ 62
  released : ∀ {start state block after}, start ≠ 0 →
    libc.realloc start 0 state = .ok (block, after) → block = 0

section

variable {σ : Type} {libc : Allocator Fault (σ × Memory)} {start members : HeapMembers}
  {klass size : DWord} {state : σ × Memory} {calls : List AllocCall}

/-- What a run keeps: the accounting, the placement of the fresh space, and that
every object has taken eight bytes or more. -/
structure AllocInvariant (start : HeapMembers) (calls : List AllocCall) (members : HeapMembers) :
    Prop extends Accounting start calls members where
  low : members.freshStart.toNat + members.freshSize.toNat < 2 ^ 63
  notNull : members.freshStart ≠ 0
  objects_le : 8 * members.objectsAllocated.toNat ≤ members.bytesAllocated.toNat

theorem AllocInvariant.freshSpace (invariant : AllocInvariant start calls members) :
    FreshSpace members :=
  ⟨invariant.bounded, invariant.low⟩

theorem AllocInvariant.pos_ne_zero (invariant : AllocInvariant start calls members) :
    members.freshPos ≠ 0 := by
  have pos := invariant.pos
  have notNull := invariant.notNull
  intro zero
  apply notNull
  apply BitVec.eq_of_toNat_eq
  rw [zero] at pos
  have none : (0 : DWord).toNat = 0 := rfl
  omega

theorem successes_null (calls : List AllocCall) (klass size : DWord) :
    successes (calls ++ [⟨klass, size, 0⟩]) = successes calls := by
  simp [successes]

theorem successes_object (calls : List AllocCall) (klass size : DWord) {result : DWord}
    (notNull : result ≠ 0) :
    successes (calls ++ [⟨klass, size, result⟩]) = successes calls ++ [⟨klass, size, result⟩] := by
  simp only [successes, List.filter_append, List.filter_cons, List.filter_nil, bne_iff_ne,
    if_pos notNull]

/-- A call that gives null changes no counter. -/
theorem AllocInvariant.null (invariant : AllocInvariant start calls members) (klass size : DWord) :
    AllocInvariant start (calls ++ [⟨klass, size, 0⟩]) members := by
  constructor
  case toAccounting =>
    constructor
    case objects => rw [successes_null, invariant.objects]
    case bytes => rw [successes_null, invariant.bytes]
    case kept => exact invariant.kept
    case pos => exact invariant.pos
    case aligned => exact invariant.aligned
    case bounded => exact invariant.bounded
  case low => exact invariant.low
  case notNull => exact invariant.notNull
  case objects_le => exact invariant.objects_le

/-- A call that gives an object moves the position by the rounded size, which is not 0. -/
theorem AllocInvariant.object (invariant : AllocInvariant start calls members)
    (small : size.toNat < 2 ^ 63) (fits : roundedSize size ≤ members.remaining)
    (positive : roundedSize size ≠ 0) {result : DWord} (notNull : result ≠ 0) :
    AllocInvariant start (calls ++ [⟨klass, size, result⟩])
      (members.bump (roundUpWord size objectAlignment)) := by
  have pos := invariant.pos
  have aligned := invariant.aligned
  have bounded := invariant.bounded
  have low := invariant.low
  have objectsLe := invariant.objects_le
  have rounded := toNat_roundUpWord_eq small
  have multiple : roundedSize size % 8 = 0 := by rw [roundedSize, Nat.mul_mod_left]
  have nextPos := invariant.freshSpace.toNat_pos_bump small fits
  have nextSpace := invariant.freshSpace.bump small fits
  rw [remaining] at fits
  have nextBytes : (members.bump (roundUpWord size objectAlignment)).bytesAllocated.toNat =
      members.bytesAllocated.toNat + roundedSize size := by
    rw [← rounded]
    exact BitVec.toNat_add_of_lt (by omega)
  have nextObjects : (members.bump (roundUpWord size objectAlignment)).objectsAllocated.toNat =
      members.objectsAllocated.toNat + 1 :=
    BitVec.toNat_add_of_lt (show members.objectsAllocated.toNat + 1 < 2 ^ 64 by omega)
  have nextStart : (members.bump (roundUpWord size objectAlignment)).freshStart =
      members.freshStart := rfl
  constructor
  case toAccounting =>
    constructor
    case kept =>
      rw [invariant.kept]
      rfl
    case pos =>
      rw [nextPos, nextBytes, nextStart]
      omega
    case aligned =>
      rw [nextPos]
      omega
    case bounded => exact nextSpace.pos_le
    case objects => rw [nextObjects, successes_object _ _ _ notNull, invariant.objects,
      List.length_append, List.length_singleton]
    case bytes => rw [nextBytes, successes_object _ _ _ notNull, invariant.bytes, List.map_append,
      List.sum_append, List.map_singleton, List.sum_singleton]
  case low => exact nextSpace.low
  case notNull => exact invariant.notNull
  case objects_le =>
    rw [nextBytes, nextObjects]
    omega

/-- One call keeps the invariant. -/
theorem AllocInvariant.step (userSpace : UserSpace libc)
    (invariant : AllocInvariant start calls members) (small : size.toNat < 2 ^ 63)
    {result : DWord} {after : HeapMembers} {afterState : σ × Memory}
    (call : members.allocObject libc klass size state = .ok (result, after, afterState)) :
    AllocInvariant start (calls ++ [⟨klass, size, result⟩]) after := by
  rcases allocObject_cases invariant.freshSpace small call with
    ⟨-, rfl, rfl, -⟩ | ⟨fits, notNull, ⟨middle, returned, -⟩, rfl⟩
  · exact invariant.null klass size
  · -- a size of 0 would have released the block, and given no object
    have positive : roundedSize size ≠ 0 := by
      intro zero
      have isZero : roundUpWord size objectAlignment = 0 :=
        BitVec.eq_of_toNat_eq ((toNat_roundUpWord_eq small).trans zero)
      rw [isZero] at returned
      exact notNull (userSpace.released invariant.pos_ne_zero returned)
    exact invariant.object small fits positive notNull

/-- A run of calls keeps the invariant. -/
theorem AllocInvariant.run {before : σ × Memory} (userSpace : UserSpace libc)
    (invariant : AllocInvariant start [] start) (run : Calls libc start before calls members state)
    (small : ∀ call ∈ calls, call.size.toNat < 2 ^ 63) : AllocInvariant start calls members := by
  induction run with
  | nil => exact invariant
  | @snoc calls members state klass size result after afterState earlier call ih =>
      have middle := ih fun other mem => small other (List.mem_append_left _ mem)
      have last := small ⟨klass, size, result⟩ (List.mem_append_right _ List.mem_cons_self)
      exact middle.step userSpace last call

/-- The constructor establishes it. -/
theorem allocInvariant_spaces {maxSize block : DWord} (notNull : block ≠ 0)
    (low : block.toNat < 2 ^ 62) :
    AllocInvariant (spaces (absoluteMaxSizeOf maxSize) (roundUpWord block objectAlignment)) []
      (spaces (absoluteMaxSizeOf maxSize) (roundUpWord block objectAlignment)) := by
  have young := (spaceSizes (absoluteMaxSizeOf_spec maxSize).1
    (roundUpWord block objectAlignment)).young
  have bound := (absoluteMaxSizeOf maxSize).isLt
  have base := @toNat_roundUpWord_eq block (by omega)
  rw [roundedSize] at base
  have positive : block.toNat ≠ 0 := fun zero => notNull (BitVec.eq_of_toNat_eq zero)
  have fresh : (spaces (absoluteMaxSizeOf maxSize) (roundUpWord block objectAlignment)).freshStart =
    roundUpWord block objectAlignment := rfl
  constructor
  case toAccounting =>
    constructor
    case kept => rfl
    case pos => rfl
    case aligned =>
      show (roundUpWord block objectAlignment).toNat % 8 = 0
      omega
    case bounded => exact Nat.le_add_right _ _
    case objects => rfl
    case bytes => rfl
  case low =>
    rw [fresh]
    omega
  case notNull =>
    rw [fresh]
    intro zero
    rw [zero] at base
    have none : (0 : DWord).toNat = 0 := rfl
    omega
  case objects_le => exact Nat.zero_le _

end

/-- The accounts of a heap that the constructor has built. -/
theorem allocInvariant_of_construct {σ : Type} {libc : Allocator Fault (σ × Memory)}
    (userSpace : UserSpace libc) {maxSize block : DWord} {initial before : σ × Memory}
    (allocated : libc.calloc (absoluteMaxSizeOf maxSize) initial = .ok (block, before))
    (notNull : block ≠ 0) {start : HeapMembers}
    (constructed : construct libc maxSize initial = .ok (start, before)) :
    AllocInvariant start [] start := by
  have low := userSpace.low allocated
  have built := construct_eq allocated (.inl (by omega))
  rw [constructed, Except.ok.injEq, Prod.mk.injEq] at built
  rw [built.1]
  exact allocInvariant_spaces notNull low

/-! ## Sequences of requests -/

section

variable {σ : Type} (libc : Allocator Fault (σ × Memory)) (start : HeapMembers)
  (before : σ × Memory)

/-- Memory is never short: every `realloc` for a byte or more that the requests lead
to returns a block. -/
def Granted (requests : List AllocRequest) : Prop :=
  ∀ calls request later members state,
    requests = calls.map AllocCall.request ++ request :: later →
    Calls libc start before calls members state → request.size ≠ 0 →
    roundedSize request.size ≤ members.remaining →
      ∃ block after, libc.realloc members.freshPos (roundUpWord request.size objectAlignment) state =
        .ok (block, after) ∧ block ≠ 0

/-- Every call of the sequence returns, and leaves the accounts right.  It gives null
exactly when the rounded size exceeds the remaining fresh space, and then changes no
member. -/
def KeepsAccounts (requests : List AllocRequest) : Prop :=
  ∀ earlier request later, requests = earlier ++ request :: later →
    ∃ calls members state result after afterState,
      calls.map AllocCall.request = earlier ∧ Calls libc start before calls members state ∧
      members.allocObject libc request.klass request.size state = .ok (result, after, afterState) ∧
      Accounting start (calls ++ [⟨request.klass, request.size, result⟩]) after ∧
      (result = 0 ↔ members.remaining < roundedSize request.size) ∧
      (result = 0 → after = members)

variable {libc start before} {members : HeapMembers} {calls : List AllocCall}
  {requests : List AllocRequest} {request : AllocRequest} {state : σ × Memory}

/-- A request of 0 bytes always fits, and gets the null pointer from `realloc`: the call
does not return. -/
theorem allocObject_zero (userSpace : UserSpace libc)
    (invariant : AllocInvariant start calls members) {klass result : DWord} {after : HeapMembers}
    {afterState : σ × Memory} :
    members.allocObject libc klass 0 state ≠ .ok (result, after, afterState) := by
  intro call
  rcases allocObject_cases invariant.freshSpace (by decide) call with
    ⟨full, -⟩ | ⟨-, notNull, ⟨middle, returned, -⟩, -⟩
  · exact Nat.not_lt_zero _ full
  · exact notNull (userSpace.released invariant.pos_ne_zero returned)

/-- A call for a byte or more returns, with null exactly when the object does not fit. -/
theorem allocObject_returns (invariant : AllocInvariant start calls members)
    (small : request.size.toNat < 2 ^ 63)
    (granted : roundedSize request.size ≤ members.remaining →
      ∃ block after, libc.realloc members.freshPos (roundUpWord request.size objectAlignment) state =
        .ok (block, after) ∧ block ≠ 0) :
    ∃ result after afterState,
      members.allocObject libc request.klass request.size state = .ok (result, after, afterState) ∧
      (result = 0 ↔ members.remaining < roundedSize request.size) ∧
      (result = 0 → after = members) := by
  by_cases full : members.remaining < roundedSize request.size
  · exact ⟨0, members, state, allocObject_full invariant.freshSpace small full,
      iff_of_true rfl full, fun _ => rfl⟩
  · have fits := Nat.not_lt.mp full
    rcases granted fits with ⟨block, after, returned, notNull⟩
    exact ⟨block, _, _, allocObject_fits invariant.freshSpace small fits returned notNull,
      iff_of_false notNull full, fun isNull => absurd isNull notNull⟩

/-- Requests of a byte or more are served one after the other. -/
theorem exists_calls (userSpace : UserSpace libc) (invariant : AllocInvariant start [] start)
    (small : ∀ request ∈ requests, request.size.toNat < 2 ^ 63)
    (granted : Granted libc start before requests)
    (positive : ∀ request ∈ requests, request.size ≠ 0) {earlier later : List AllocRequest}
    (split : requests = earlier ++ later) :
    ∃ calls members state, calls.map AllocCall.request = earlier ∧
      Calls libc start before calls members state ∧ AllocInvariant start calls members := by
  induction earlier using List.reverseRecOn generalizing later with
  | nil => exact ⟨[], start, before, rfl, .nil, invariant⟩
  | append_singleton earlier request ih =>
      rw [List.append_assoc, List.singleton_append] at split
      rcases ih split with ⟨calls, members, state, rfl, run, kept⟩
      have mem : request ∈ requests := by simp [split]
      rcases allocObject_returns kept (small request mem)
        (granted calls request later members state split run (positive request mem)) with
        ⟨result, after, afterState, call, -⟩
      exact ⟨_, after, afterState, by rw [List.map_append]; rfl, run.snoc call,
        kept.step userSpace (small request mem) call⟩

end

/-- An allocator with one block, which `realloc` shrinks where it is. -/
def inPlace : Allocator Fault (Unit × Memory) where
  calloc _ state := .ok (0x10000, state)
  realloc start size state := .ok (if size = 0 then 0 else start, state)

theorem userSpace_inPlace : UserSpace inPlace := by
  constructor
  case low =>
    rintro size state block after ⟨⟩
    decide
  case released =>
    rintro start state block after notNull ⟨⟩
    rfl

/-- It grants every request of a byte or more. -/
theorem granted_inPlace {start : HeapMembers} {before : Unit × Memory}
    {requests : List AllocRequest} (invariant : AllocInvariant start [] start)
    (small : ∀ request ∈ requests, request.size.toNat < 2 ^ 63) :
    Granted inPlace start before requests := by
  intro calls request later members state split run positive _
  have smallRequest : request.size.toNat < 2 ^ 63 := small request (by simp [split])
  have smallCalls : ∀ call ∈ calls, call.size.toNat < 2 ^ 63 := by
    intro call inCalls
    apply small call.request
    rw [split]
    exact List.mem_append_left _ (List.mem_map_of_mem inCalls)
  have kept := invariant.run userSpace_inPlace run smallCalls
  have notZero : roundUpWord request.size objectAlignment ≠ 0 := by
    intro zero
    have rounded := toNat_roundUpWord_eq smallRequest
    have sizePos : request.size.toNat ≠ 0 := fun none => positive (BitVec.eq_of_toNat_eq none)
    rw [zero, roundedSize] at rounded
    have none : (0 : DWord).toNat = 0 := rfl
    omega
  exact ⟨members.freshPos, state, by simp only [inPlace, if_neg notZero], kept.pos_ne_zero⟩

/-- What a call of `realloc` on an address at which no block starts is. -/
def illegalRealloc : Fault := .undefined "realloc of an address that is no live block"

/-- The requests fit in the fresh space of a new heap. -/
def FitFresh (maxSize : DWord) (requests : List AllocRequest) : Prop :=
  (requests.map fun request => roundedSize request.size).sum ≤
    (spaces (absoluteMaxSizeOf maxSize) 0).freshSize.toNat

/-- Under every allocator that keeps the contract, while the requests are served on a
new heap, no call of `realloc` is illegal and the block of the heap stays live. -/
def AllocatesLegally (maxSize : DWord) (requests : List AllocRequest) : Prop :=
  ∀ (σ : Type) (libc : Allocator Fault (σ × Memory)) (live : σ → LiveBlocks),
    libc.Obeys (fun state => live state.1) illegalRealloc →
  ∀ initial block before start,
    libc.calloc (absoluteMaxSizeOf maxSize) initial = .ok (block, before) → block ≠ 0 →
    construct libc maxSize initial = .ok (start, before) →
  ∀ calls rest members state,
    requests = calls.map (fun call => ⟨call.klass, call.size⟩) ++ rest →
    Calls libc start before calls members state →
      live state.1 block = some (absoluteMaxSizeOf maxSize).toNat ∧
        ∀ request ∈ rest.head?,
          members.allocObject libc request.klass request.size state ≠ .error illegalRealloc

/-- An allocator for one block at a fixed address, which `realloc` shrinks where it is.
The state holds the size of the block. -/
def oneBlock : Allocator Fault (Option Nat × Memory) where
  calloc size state :=
    if state.1 = none ∧ 8 + size.toNat ≤ 2 ^ 64 then .ok (8, some size.toNat, state.2)
    else .ok (0, state)
  realloc start size state :=
    if start ≠ 8 ∨ state.1 = none then .error illegalRealloc
    else if state.1.getD 0 < size.toNat ∨ 2 ^ 64 < 8 + size.toNat then .ok (0, state)
    else .ok (8, some size.toNat, state.2)

/-- The blocks of `oneBlock`. -/
def oneBlockLive (size : Option Nat) : LiveBlocks :=
  fun address => if address = 8 then size else none

theorem oneBlockLive_eq_none {size : Option Nat} {address : DWord} :
    oneBlockLive size address = none ↔ address ≠ 8 ∨ size = none := by
  rw [oneBlockLive]
  split
  case isTrue here => simp [here]
  case isFalse elsewhere => exact iff_of_true rfl (.inl elsewhere)

/-- Beside the block there is nothing. -/
theorem oneBlockLive_insert (size : Option Nat) (newSize : Nat) :
    (oneBlockLive size).insert 8 newSize = oneBlockLive (some newSize) := by
  funext address
  rw [LiveBlocks.insert, oneBlockLive, oneBlockLive]
  split <;> rfl

theorem oneBlockLive_erase (size : Option Nat) :
    (oneBlockLive size).erase 8 = oneBlockLive none := by
  funext address
  rw [LiveBlocks.erase, oneBlockLive, oneBlockLive]
  split <;> rfl

theorem oneBlockLive_room {size : Nat} (inside : 8 + size ≤ 2 ^ 64) :
    (oneBlockLive none).Room 8 size := by
  constructor
  case notNull => decide
  case inside => exact inside
  case apart =>
    intro other otherSize found
    have absent : oneBlockLive none other = none := oneBlockLive_eq_none.mpr (.inr rfl)
    rw [absent] at found
    cases found

theorem oneBlock_obeys : oneBlock.Obeys (fun state => oneBlockLive state.1) illegalRealloc := by
  constructor
  case calloc_null =>
    rintro size state after allocated
    simp only [oneBlock] at allocated
    split at allocated
    case isTrue => cases allocated
    case isFalse =>
      cases allocated
      rfl
  case calloc_block =>
    rintro size state block after allocated notNull
    simp only [oneBlock] at allocated
    split at allocated
    case isTrue room =>
      cases allocated
      rw [room.1]
      exact ⟨oneBlockLive_room room.2, (oneBlockLive_insert none size.toNat).symm⟩
    case isFalse =>
      cases allocated
      exact absurd rfl notNull
  case realloc_illegal =>
    rintro start size state dead
    exact if_pos (oneBlockLive_eq_none.mp dead)
  case realloc_legal =>
    rintro start size state isLive
    have legal := oneBlockLive_eq_none.not.mp isLive
    simp only [oneBlock, if_neg legal]
    split
    case isTrue =>
      intro same
      cases same
    case isFalse =>
      intro same
      cases same
  case realloc_null =>
    rintro start size state after returned
    simp only [oneBlock] at returned
    split at returned
    case isTrue => cases returned
    case isFalse =>
      split at returned
      case isTrue large =>
        cases returned
        have notZero : size ≠ 0 := by
          rintro rfl
          have none : (0 : DWord).toNat = 0 := rfl
          omega
        rw [if_neg notZero]
      case isFalse => cases returned
  case realloc_block =>
    rintro start size state block after returned notNull
    simp only [oneBlock] at returned
    split at returned
    case isTrue => cases returned
    case isFalse legal =>
      split at returned
      case isTrue =>
        cases returned
        exact absurd rfl notNull
      case isFalse fits =>
        cases returned
        have isStart : start = 8 := not_not.mp (not_or.mp legal).1
        rw [isStart, oneBlockLive_erase, oneBlockLive_insert]
        exact ⟨oneBlockLive_room (by omega), rfl⟩

/-- The block shrinks where it is. -/
theorem oneBlock_realloc {held : Nat} {size : DWord} (shrinks : size.toNat ≤ held)
    (inside : 8 + size.toNat ≤ 2 ^ 64) (memory : Memory) :
    oneBlock.realloc 8 size (some held, memory) = .ok (8, some size.toNat, memory) := by
  have legal : ¬ ((8 : DWord) ≠ 8 ∨ some held = none) := by
    rintro (differ | absent)
    · exact differ rfl
    · cases absent
  have shrunk : ¬ (held < size.toNat ∨ 2 ^ 64 < 8 + size.toNat) := by omega
  simp only [oneBlock]
  rw [if_neg legal]
  exact if_neg shrunk

/-- The first object of a heap whose block starts at the fixed address. -/
theorem allocObject_oneBlock {maxSize klass size : DWord}
    (fits : roundedSize size ≤ (spaces (absoluteMaxSizeOf maxSize) 8).freshSize.toNat)
    (memory : Memory) :
    ∃ after header, (spaces (absoluteMaxSizeOf maxSize) 8).allocObject oneBlock klass size
        (some (absoluteMaxSizeOf maxSize).toNat, memory) =
      .ok (8, after, some (roundedSize size), header) := by
  have bound := (absoluteMaxSizeOf maxSize).isLt
  have young := (spaceSizes (absoluteMaxSizeOf_spec maxSize).1 8).young
  have invariant : AllocInvariant (spaces (absoluteMaxSizeOf maxSize) 8) []
      (spaces (absoluteMaxSizeOf maxSize) 8) :=
    @allocInvariant_spaces maxSize 8 (by decide) (by decide)
  have small : size.toNat < 2 ^ 63 := by
    rw [roundedSize] at fits
    omega
  have rounded := toNat_roundUpWord_eq small
  have remaining : (spaces (absoluteMaxSizeOf maxSize) 8).remaining =
      (spaces (absoluteMaxSizeOf maxSize) 8).freshSize.toNat := Nat.add_sub_cancel_left _ _
  have returned : oneBlock.realloc (spaces (absoluteMaxSizeOf maxSize) 8).freshPos
      (roundUpWord size objectAlignment) (some (absoluteMaxSizeOf maxSize).toNat, memory) =
        .ok (8, some (roundUpWord size objectAlignment).toNat, memory) :=
    oneBlock_realloc (by omega) (by omega) memory
  rw [rounded] at returned
  rw [← remaining] at fits
  exact ⟨_, _, allocObject_fits invariant.freshSpace small fits returned (by decide)⟩

/-- A first object already makes the allocator release the block of the heap for a
smaller one. -/
theorem not_allocatesLegally_cons {maxSize : DWord} {request : AllocRequest}
    {rest : List AllocRequest} (fits : FitFresh maxSize (request :: rest)) :
    ¬ AllocatesLegally maxSize (request :: rest) := by
  intro legal
  have bound := (absoluteMaxSizeOf maxSize).isLt
  have large := absoluteMaxSizeOf_spec maxSize
  have sizes := spaceSizes large.1 8
  have young := sizes.young
  have survivorPos := sizes.survivor_pos
  have requestFits : roundedSize request.size ≤
      (spaces (absoluteMaxSizeOf maxSize) 8).freshSize.toNat := by
    rw [FitFresh, List.map_cons, List.sum_cons] at fits
    exact Nat.le_trans (Nat.le_add_right _ _) fits
  have allocated : oneBlock.calloc (absoluteMaxSizeOf maxSize) (none, fun _ => 0) =
      .ok (8, some (absoluteMaxSizeOf maxSize).toNat, fun _ => 0) := by
    apply if_pos
    exact ⟨rfl, by omega⟩
  have constructed : construct oneBlock maxSize (none, fun _ => 0) =
      .ok (spaces (absoluteMaxSizeOf maxSize) 8, some (absoluteMaxSizeOf maxSize).toNat,
        fun _ => 0) :=
    construct_eq allocated (.inl (by decide))
  rcases @allocObject_oneBlock maxSize request.klass request.size requestFits fun _ => 0 with
    ⟨after, header, call⟩
  have stays := legal (Option Nat) oneBlock oneBlockLive oneBlock_obeys _ _ _ _ allocated
    (by decide) constructed _ rest _ _ rfl (Calls.snoc .nil call)
  have released : some (roundedSize request.size) = some (absoluteMaxSizeOf maxSize).toNat :=
    stays.1
  rw [Option.some.injEq] at released
  omega

/-- No request at all is what leaves the block of the heap as it is. -/
theorem allocatesLegally_iff {maxSize : DWord} {requests : List AllocRequest}
    (fits : FitFresh maxSize requests) : AllocatesLegally maxSize requests ↔ requests = [] := by
  constructor
  · intro legal
    cases requests with
    | nil => rfl
    | cons request rest => exact absurd legal (not_allocatesLegally_cons fits)
  · rintro rfl σ libc live obeys initial block before start allocated notNull constructed calls rest
      members state split run
    have noCalls : calls = [] ∧ rest = [] := by
      rcases List.append_eq_nil_iff.mp split.symm with ⟨noCall, noRest⟩
      exact ⟨List.map_eq_nil_iff.mp noCall, noRest⟩
    rcases noCalls with ⟨rfl, rfl⟩
    generalize noCall : ([] : List AllocCall) = calls at run
    cases run with
    | nil =>
        constructor
        · have held := (obeys.calloc_block allocated notNull).2
          rw [held, LiveBlocks.insert_self]
        · rintro request ⟨⟩
    | snoc earlier call => exact absurd noCall.symm (List.append_ne_nil_of_right_ne_nil _ (by simp))

/-- Two objects of 32 bytes in a heap of 4104: the second `realloc` is called on an
address inside the block that the first call has released. -/
theorem second_object_illegal :
    FitFresh 4097 [⟨0, 32⟩, ⟨0, 32⟩] ∧ ¬ AllocatesLegally 4097 [⟨0, 32⟩, ⟨0, 32⟩] ∧
      ∃ start before after state, construct oneBlock 4097 (none, fun _ => 0) = .ok (start, before) ∧
        start.allocObject oneBlock 0 32 before = .ok (8, after, state) ∧
        after.allocObject oneBlock 0 32 state = .error illegalRealloc := by
  have fits : FitFresh 4097 [⟨0, 32⟩, ⟨0, 32⟩] := by
    rw [FitFresh]
    decide
  exact ⟨fits, not_allocatesLegally_cons fits, _, _, _, _, rfl, rfl, rfl⟩

theorem allocatesLegally_nil : AllocatesLegally 4097 [] := by
  have fits : FitFresh 4097 [] := Nat.zero_le _
  exact (allocatesLegally_iff fits).mpr rfl

/-- Under every allocator that keeps the contract, once an object has been handed out
at another address than the next free one, the next object that fits is refused. -/
theorem next_realloc_illegal {σ : Type} {libc : Allocator Fault (σ × Memory)}
    {live : σ → LiveBlocks} (obeys : libc.Obeys (fun state => live state.1) illegalRealloc)
    {maxSize block : DWord} {initial before : σ × Memory}
    (allocated : libc.calloc (absoluteMaxSizeOf maxSize) initial = .ok (block, before))
    (notNull : block ≠ 0) (aligned : block.toNat % 8 = 0) (low : block.toNat < 2 ^ 62)
    {klass size obj : DWord} {after : HeapMembers} {state : σ × Memory}
    (small : size.toNat < 2 ^ 63) (positive : size ≠ 0)
    (call : (spaces (absoluteMaxSizeOf maxSize) block).allocObject libc klass size before =
      .ok (obj, after, state)) (handedOut : obj ≠ 0) (elsewhere : obj ≠ after.freshPos)
    {nextKlass nextSize : DWord} (nextSmall : nextSize.toNat < 2 ^ 63)
    (nextFits : roundedSize nextSize ≤ after.remaining) :
    after.allocObject libc nextKlass nextSize state = .error illegalRealloc := by
  have invariant := @allocInvariant_spaces maxSize block notNull low
  rw [roundUpWord_of_aligned aligned] at invariant
  have young := (spaceSizes (absoluteMaxSizeOf_spec maxSize).1 block).young
  have lowSpace := invariant.low
  rcases allocObject_cases invariant.freshSpace small call with
    ⟨-, isNull, -⟩ | ⟨fits, -, ⟨middle, returned, rfl⟩, rfl⟩
  · exact absurd isNull handedOut
  · have nextPos := invariant.freshSpace.toNat_pos_bump small fits
    have nextSpace := invariant.freshSpace.bump small fits
    have start : (spaces (absoluteMaxSizeOf maxSize) block).freshPos = block := rfl
    rw [start] at nextPos
    have remaining : (spaces (absoluteMaxSizeOf maxSize) block).remaining =
        (spaces (absoluteMaxSizeOf maxSize) block).freshSize.toNat := Nat.add_sub_cancel_left _ _
    have grows : 0 < roundedSize size := by
      have sizePos : size.toNat ≠ 0 := fun zero => positive (BitVec.eq_of_toNat_eq zero)
      rw [roundedSize]
      omega
    have room := obeys.calloc_block allocated notNull
    have moved : live middle.1 = ((live before.1).erase block).insert obj
        (roundUpWord size objectAlignment).toNat := (obeys.realloc_block returned handedOut).2
    generalize (spaces (absoluteMaxSizeOf maxSize) block).bump
      (roundUpWord size objectAlignment) = after at *
    have notBlock : after.freshPos ≠ block := by
      intro same
      rw [same] at nextPos
      omega
    -- the next free address lies inside what was the block of the heap
    have outside : live initial.1 after.freshPos = none := room.1.eq_none (by omega) (by omega)
    have dead : live middle.1 after.freshPos = none := by
      rw [moved, room.2, LiveBlocks.insert_of_ne _ _ (Ne.symm elsewhere),
        LiveBlocks.erase_of_ne _ notBlock, LiveBlocks.insert_of_ne _ _ notBlock]
      exact outside
    exact allocObject_refused nextSpace nextSmall nextFits (obeys.realloc_illegal dead)

end JvmDemo.Runtime
